import SpringArm.Proofs.Blueprint.Recognition
import SpringArm.Proofs.Blueprint.Values

/-!
# Items are found as they were written

Lists of items are recognised as a whole and then searched for their items. The search has no
anchors: it tries every character at which no item was found before. In a list it finds the items
that were written, in their order, since it passes over the blanks in front of an item and reads the
item up to the blanks behind it.
-/

namespace SpringArm

open Statement

section Search

variable {α : Type} {readItem : List Char → Option (α × List Char)}

theorem findAllFrom_eq (readItem : List Char → Option (α × List Char)) (covered : Nat)
    (text : List Char) :
    Text.findAllFrom readItem covered text = Text.findAll readItem (text.drop covered) := by
  induction text generalizing covered with
  | nil => cases covered <;> rfl
  | cons first more inductionHypothesis =>
    cases covered with
    | zero => rfl
    | succ covered =>
      rw [Text.findAllFrom, inductionHypothesis covered, List.drop_succ_cons]

/-- Where no item is read the search goes on behind the character. -/
theorem findAll_unread {first : Char} {more : List Char}
    (unread : readItem (first :: more) = none) :
    Text.findAll readItem (first :: more) = Text.findAll readItem more := by
  rw [Text.findAll, Text.findAllFrom, unread]
  rfl

/-- Where an item is read the search goes on behind the item. -/
theorem findAll_read {text rest : List Char} {item : α} (nonempty : text ≠ [])
    (found : readItem (text ++ rest) = some (item, rest)) :
    Text.findAll readItem (text ++ rest) = item :: Text.findAll readItem rest := by
  obtain ⟨first, more, rfl⟩ := List.exists_cons_of_ne_nil nonempty
  rw [List.cons_append] at found ⊢
  rw [Text.findAll, Text.findAllFrom, found]
  dsimp only
  rw [findAllFrom_eq, List.length_append, Nat.add_sub_cancel, List.drop_left]

end Search

/-- A reader reads items of a list: none of them starts with a blank, and each of them is read if it
is followed by a blank or by nothing. -/
structure Reads {α : Type} (readItem : List Char → Option (α × List Char))
    (spells : α → List Char → Prop) : Prop where
  space : ∀ rest, readItem (' ' :: rest) = none
  tab : ∀ rest, readItem ('\t' :: rest) = none
  nonempty : ∀ item text, spells item text → text ≠ []
  item : ∀ item text rest, spells item text → endsItem rest = true →
    readItem (text ++ rest) = some (item, rest)

namespace Reads

variable {α : Type} {readItem : List Char → Option (α × List Char)}
  {spells : α → List Char → Prop}

theorem findAll_gaps (reads : Reads readItem spells) {gaps : List Char} (blank : Gaps gaps)
    (rest : List Char) : Text.findAll readItem (gaps ++ rest) = Text.findAll readItem rest := by
  induction gaps with
  | nil => rfl
  | cons gap more inductionHypothesis =>
    obtain ⟨first, others⟩ := List.forall_mem_cons.mp blank
    have unread : readItem (gap :: (more ++ rest)) = none := by
      rcases isGap_cases first with rfl | rfl
      · exact reads.space _
      · exact reads.tab _
    rw [List.cons_append, findAll_unread unread, inductionHypothesis others]

/-- The search finds the items of a list, each of them once and in their order. -/
theorem findAll_listed (reads : Reads readItem spells) {items : List α} {text behind : List Char}
    (listed : Listed spells items text) (gaps : Gaps behind) :
    Text.findAll readItem (text ++ behind) = items := by
  induction listed with
  | nil =>
    have passed := reads.findAll_gaps gaps []
    rwa [List.append_nil] at passed
  | cons separator first others inductionHypothesis =>
    rw [List.append_assoc, List.append_assoc, reads.findAll_gaps separator.2,
      findAll_read (reads.nonempty _ _ first) (reads.item _ _ _ first (others.endsItem gaps)),
      inductionHypothesis]

end Reads

theorem reads_numerals : Reads readNumeral Numeral.Spells where
  space _ := rfl
  tab _ := rfl
  nonempty _ _ spells := spells.word.1
  item := by
    rintro numeral _ rest ⟨legal, rfl⟩ ends
    exact readNumeral_text legal ⟨stops_of_endsItem Char.isDigit rfl rfl ends,
      fun _ => stops_of_endsItem (· == '.') rfl rfl ends⟩

theorem reads_rules : Reads readRule Rule.Spells where
  space _ := rfl
  tab _ := rfl
  nonempty _ _ spells := by
    obtain ⟨first, more, rfl, -⟩ := spells.head
    exact List.cons_ne_nil _ _
  item _ text _ spells ends := readRule_eq_some_iff.mpr
    ⟨text, spells, rfl, stops_of_endsItem isReplacementCharacter rfl rfl ends⟩

/-- No letter is blank. -/
theorem solid_of_isAlpha {letter : Char} (isLetter : letter.isAlpha = true) :
    Text.isBlank letter = false := by
  have letters : (decide (letter.val ≥ 'A'.val ∧ letter.val ≤ 'Z'.val) ||
      (decide (letter.val ≥ 'a'.val) && decide (letter.val ≤ 'z'.val))) = true := isLetter
  simp only [Bool.or_eq_true, Bool.and_eq_true, decide_eq_true_eq, ge_iff_le,
    UInt32.le_iff_toNat_le] at letters
  have range :
      (65 ≤ letter.toNat ∧ letter.toNat ≤ 90) ∨ (97 ≤ letter.toNat ∧ letter.toNat ≤ 122) := letters
  simp only [Text.isBlank, Text.blankRanges, List.any_cons, List.any_nil, Bool.or_eq_false_iff,
    Bool.and_eq_false_iff, decide_eq_false_iff_not, and_true]
  omega

theorem reads_options : Reads Text.readPiece SpellsOption where
  space _ := rfl
  tab _ := rfl
  nonempty := by
    rintro _ _ ⟨nonempty, -, rfl⟩
    exact nonempty
  item := by
    rintro _ word rest ⟨nonempty, letters, rfl⟩ ends
    have inside : ∀ character ∈ word, (!Text.isBlank character) = true := by
      intro character member
      simp [solid_of_isAlpha (letters character member)]
    have stops := stops_of_endsItem (!Text.isBlank ·) rfl rfl ends
    obtain ⟨first, more, rfl⟩ := List.exists_cons_of_ne_nil nonempty
    simp only [Text.readPiece, takeWhile_run inside stops, dropWhile_run inside stops]

/-- A list of places is a list of numbers, two for each place. -/
theorem Listed.numerals {places : List Coordinates} {text : List Char}
    (listed : Listed Coordinates.Spells places text) :
    Listed Numeral.Spells (places.flatMap fun place => [place.x, place.y]) text := by
  induction listed with
  | nil => exact .nil
  | cons separator first others inductionHypothesis =>
    obtain ⟨x, between, y, spellsX, parted, spellsY, rfl⟩ := first
    rw [List.append_assoc, List.append_assoc]
    exact .cons separator spellsX (.cons parted spellsY inductionHypothesis)

theorem placesOf_flatMap (places : List Coordinates) :
    placesOf (places.flatMap fun place => [place.x, place.y]) = places := by
  induction places with
  | nil => rfl
  | cons place others inductionHypothesis => exact congrArg (place :: ·) inductionHypothesis

/-- The doubles of a place are those that the texts of its numbers spell. -/
def Coordinates.Denotes (place : Coordinates) (position : Float × Float) : Prop :=
  Decimal.readFloat? place.x.text = some position.1 ∧
    Decimal.readFloat? place.y.text = some position.2

/-- The doubles of an interval are those that the texts of its bounds spell. -/
def Bounds.Denotes (bounds : Bounds) (interval : Interval) : Prop :=
  Decimal.readFloat? bounds.low.text = some interval.low ∧
    Decimal.readFloat? bounds.high.text = some interval.high

theorem Coordinates.Spells.denotes {place : Coordinates} {text : List Char}
    (spells : place.Spells text) : place.Denotes (place.x.value, place.y.value) := by
  obtain ⟨_, _, _, x, -, y, -⟩ := spells
  exact ⟨Numeral.readFloat?_text x.1, Numeral.readFloat?_text y.1⟩

theorem Bounds.Spells.denotes {bounds : Bounds} {text : List Char}
    (spells : bounds.Spells text) : bounds.Denotes bounds.interval := by
  obtain ⟨_, _, _, _, _, _, -, low, -, -, high, -, -⟩ := spells
  exact ⟨Numeral.readFloat?_text low.1, Numeral.readFloat?_text high.1⟩

/-- Every item of a list is spelt somewhere. -/
theorem Listed.exists_spelt {α : Type} {spells : α → List Char → Prop} {items : List α}
    {text : List Char} (listed : Listed spells items text) :
    ∀ item ∈ items, ∃ spelt, spells item spelt := by
  induction listed with
  | nil => exact nofun
  | cons _ first _ inductionHypothesis =>
    exact List.forall_mem_cons.mpr ⟨⟨_, first⟩, inductionHypothesis⟩

/-- The integer that a count within the limit stands for. -/
def Count.number (count : Count) : Int :=
  if count.negative then -(Decimal.natOfPlain count.digits : Int)
  else Decimal.natOfPlain count.digits

namespace Statement

/-- Callers that ask for the items of a line get those of a statement. Numbers come as the doubles
that their texts spell. -/
def FoundOn (line : List Char) : Statement → Prop
  | place part first more =>
    List.Forall₂ (fun place mass => mass.1 = part.kind ∧ place.Denotes mass.2) (first :: more)
      (massesOf line)
  | window bounds => ∃ interval, windowOf line = .ok interval ∧ bounds.Denotes interval
  | create _ letter bounds => letterOf line = .ok letter ∧
      ∃ interval, distanceOf line = .ok interval ∧ bounds.Denotes interval
  | options words => switchesOnLine line = .ok (words.filterMap Switch.ofSpelling?)
  | rules spelt => rulesOf line = .ok spelt
  | random _ count => integerOf line =
      if Decimal.integerDigitLimit < count.digits.length
      then .error (.integer (.tooManyDigits count.digits.length)) else .ok count.number

/-- The items of a line are found as they were written. -/
theorem Spells.found {statement : Statement} {line : List Char} (spells : statement.Spells line) :
    statement.FoundOn line := by
  have read := read_eq_some_iff.mpr spells
  obtain ⟨before, body, behind, blank, spelt, gaps, text⟩ := spells
  have behindText : behindKeyword line = body ++ behind := by
    rw [text]
    exact (statement.keyword.split_line blank (spelt.endsItem gaps)).2
  cases spelt with
  | place listed =>
    simp only [FoundOn, massesOf, read, behindText,
      reads_numerals.findAll_listed listed.numerals gaps, placesOf_flatMap]
    rw [List.forall₂_map_right_iff, List.forall₂_same]
    intro place member
    obtain ⟨_, spells⟩ := listed.exists_spelt place member
    exact ⟨rfl, spells.denotes⟩
  | window _ spells => exact ⟨_, by simp only [windowOf, read], spells.denotes⟩
  | create _ _ _ spells =>
    exact ⟨by simp only [letterOf, read], _, by simp only [distanceOf, read], spells.denotes⟩
  | options _ listed =>
    simp only [FoundOn, switchesOnLine, read, behindText, Text.pieces,
      reads_options.findAll_listed listed gaps, switchesOf]
  | rules _ listed =>
    simp only [FoundOn, rulesOf, read, behindText, reads_rules.findAll_listed listed gaps]
  | @random _ count _ _ _ spells =>
    simp only [FoundOn, integerOf, read, Count.value, Count.number,
      Decimal.integerOfDigits_of_signed count.negative spells.2.1]
    split <;> rfl

/-- A line has a keyword just if it belongs to it by its spelling, it belongs to one keyword at
most, and whatever statement it spells, its items are found as they were written. -/
theorem read_spelt (line : List Char) :
    (∀ keyword, (read line).map Statement.keyword = some keyword ↔ keyword.Spells line) ∧
      (∀ first second : Keyword, first.Spells line → second.Spells line → first = second) ∧
      ∀ statement : Statement, statement.Spells line → statement.FoundOn line := by
  have recognised : ∀ keyword,
      (read line).map Statement.keyword = some keyword ↔ keyword.Spells line := by
    intro keyword
    simp only [Option.map_eq_some_iff, read_eq_some_iff, Keyword.Spells, and_comm]
  refine ⟨recognised, ?_, fun statement spells => spells.found⟩
  intro first second spellsFirst spellsSecond
  have same := (recognised first).mpr spellsFirst
  rw [(recognised second).mpr spellsSecond] at same
  exact (Option.some.inj same).symm

/-- Two rules: the right side of the first one ends with a dash, and that of the second one starts
with one. -/
def dashedRules : List Char :=
  " productionRules A->b- c_1\t->\t-d ".toList

/-- The dashes belong to the rules, not to arrows. -/
theorem read_spelt_dashed : Keyword.rules.Spells dashedRules ∧
    rulesOf dashedRules = .ok [⟨['A'], ['b', '-']⟩, ⟨['c', '_', '1'], ['-', 'd']⟩] := by
  have read : read dashedRules =
      some (.rules [⟨['A'], ['b', '-']⟩, ⟨['c', '_', '1'], ['-', 'd']⟩]) := by
    decide +kernel
  obtain ⟨recognised, -, found⟩ := read_spelt dashedRules
  refine ⟨(recognised .rules).mp ?_, found _ (read_eq_some_iff.mp read)⟩
  rw [read]
  rfl

end Statement

end SpringArm
