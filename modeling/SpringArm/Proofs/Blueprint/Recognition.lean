import SpringArm.Proofs.Blueprint.Items

/-!
# Lines are recognised by their spelling

A line is read as a statement just if it spells this statement. Lists of items are recognised item
by item, since each item ends in front of the blanks of the next one; the keyword ends in front of
the blanks of the first item. As a line is read as at most one statement, it belongs to at most one
keyword.
-/

namespace SpringArm

open Statement

/-- A text with blanks in front of it can follow an item. -/
theorem Separator.endsItem {gap : List Char} (separator : Separator gap) (rest : List Char) :
    Statement.endsItem (gap ++ rest) = true := by
  obtain ⟨first, more, rfl⟩ := List.exists_cons_of_ne_nil separator.1
  exact separator.2 first List.mem_cons_self

namespace Listed

variable {α : Type} {spells : α → List Char → Prop} {items : List α} {text : List Char}

/-- A list of items, and blanks behind it, can follow an item. -/
theorem endsItem (listed : Listed spells items text) {behind : List Char} (gaps : Gaps behind) :
    endsItem (text ++ behind) = true := by
  cases listed with
  | nil => exact endsItem_gaps gaps
  | cons separator first others =>
    rw [List.append_assoc]
    exact separator.endsItem _

theorem singleton_iff {item : α} : Listed spells [item] text ↔
    ∃ gap spelt, Separator gap ∧ spells item spelt ∧ text = gap ++ spelt := by
  constructor
  · intro listed
    cases listed with
    | cons separator first others =>
      cases others
      exact ⟨_, _, separator, first, by simp⟩
  · rintro ⟨gap, spelt, separator, first, rfl⟩
    have whole := Listed.cons separator first .nil
    rwa [List.append_nil] at whole

end Listed

/-- A text that starts with a blank and goes on with another character has a separator. -/
theorem separator_of_endsItem {gaps rest : List Char} (gapsBlank : Gaps gaps)
    (ends : endsItem (gaps ++ rest) = true) (nonempty : rest ≠ []) (solid : Stops isGap rest) :
    Separator gaps := by
  refine ⟨?_, gapsBlank⟩
  rintro rfl
  obtain ⟨first, more, rfl⟩ := List.exists_cons_of_ne_nil nonempty
  have gap : isGap first = true := ends
  rw [solid first rfl] at gap
  cases gap

/-- A text that starts with no blank starts with a word. -/
theorem exists_word {text : List Char} (nonempty : text ≠ []) (solid : Stops isGap text) :
    ∃ word rest, word ≠ [] ∧ (∀ character ∈ word, isGap character = false) ∧
      endsItem rest = true ∧ text = word ++ rest := by
  refine ⟨text.takeWhile (!isGap ·), text.dropWhile (!isGap ·), ?_, ?_,
    endsItem_of_stops (stops_dropWhile _ _), List.takeWhile_append_dropWhile.symm⟩
  · obtain ⟨first, more, rfl⟩ := List.exists_cons_of_ne_nil nonempty
    rw [List.takeWhile_cons_of_pos (by simp [solid first rfl])]
    exact List.cons_ne_nil _ _
  · intro character member
    simpa using List.mem_takeWhile_imp member

/-- A text is made of its words, the blanks in front of them, and blanks at its end. -/
theorem words_listed {text : List Char} (ends : endsItem text = true) :
    ∃ body behind, Listed SpellsWord (words text) body ∧ Gaps behind ∧ text = body ++ behind := by
  obtain ⟨gaps, blank, parts, solid⟩ := exists_gaps text
  by_cases nothing : skipGaps text = []
  · rw [nothing, List.append_nil] at parts
    have none := words_gaps blank []
    rw [List.append_nil, ← parts] at none
    exact ⟨[], text, none ▸ .nil, parts ▸ blank, rfl⟩
  · obtain ⟨word, rest, nonempty, wordSolid, restEnds, wordParts⟩ := exists_word nothing solid
    have separator : Separator gaps :=
      separator_of_endsItem blank (parts ▸ ends) nothing solid
    rw [wordParts] at parts
    -- Behind its first word the text is shorter and can follow an item again.
    have shorter : rest.length < text.length := by
      have wordLength := List.length_pos_iff.mpr nonempty
      rw [parts, List.length_append, List.length_append]
      omega
    obtain ⟨body, behind, listed, behindGaps, restParts⟩ := words_listed restEnds
    refine ⟨gaps ++ (word ++ body), behind, ?_, behindGaps, ?_⟩
    · rw [parts, words_gaps blank, words_word nonempty wordSolid restEnds]
      exact .cons separator ⟨nonempty, wordSolid, rfl⟩ listed
    · rw [parts, List.append_assoc, List.append_assoc, ← restParts]
termination_by text.length

/-- The words of a text behind a keyword. -/
theorem words_eq_iff {text : List Char} (ends : endsItem text = true) {found : List (List Char)} :
    words text = found ↔
      ∃ body behind, Listed SpellsWord found body ∧ Gaps behind ∧ text = body ++ behind := by
  constructor
  · rintro rfl
    exact words_listed ends
  · rintro ⟨body, behind, listed, gaps, rfl⟩
    clear ends
    induction listed with
    | nil =>
      have none := words_gaps gaps []
      rwa [List.append_nil] at none
    | cons separator first others inductionHypothesis =>
      obtain ⟨nonempty, solid, rfl⟩ := first
      rw [List.append_assoc, List.append_assoc, words_gaps separator.2,
        words_word nonempty solid (others.endsItem gaps), inductionHypothesis]

/-- Places are words two by two. -/
theorem listed_coordinates_iff {places : List Coordinates} {body : List Char} :
    Listed Coordinates.Spells places body ↔
      ∃ found, Listed SpellsWord found body ∧ coordinatesOfWords? found = some places := by
  constructor
  · intro listed
    induction listed with
    | nil => exact ⟨[], .nil, rfl⟩
    | @cons gap text rest place others separator first _ inductionHypothesis =>
      obtain ⟨found, listedFound, read⟩ := inductionHypothesis
      obtain ⟨x, between, y, spellsX, parted, spellsY, rfl⟩ := first
      refine ⟨x :: y :: found, ?_, ?_⟩
      · rw [List.append_assoc, List.append_assoc]
        exact .cons separator spellsX.word (.cons parted spellsY.word listedFound)
      · simp [coordinatesOfWords?, numeralOfWord?_eq_some_iff.mpr spellsX,
          numeralOfWord?_eq_some_iff.mpr spellsY, read]
  · rintro ⟨found, listed, read⟩
    induction found using coordinatesOfWords?.induct generalizing places body with
    | case1 =>
      cases listed
      cases read
      exact .nil
    | case2 word => cases read
    | case3 first second rest inductionHypothesis =>
      simp only [coordinatesOfWords?, Option.bind_eq_bind, Option.bind_eq_some_iff,
        numeralOfWord?_eq_some_iff, Option.pure_def, Option.some.injEq] at read
      obtain ⟨x, spellsX, y, spellsY, others, readOthers, rfl⟩ := read
      cases listed with
      | cons separator firstWord listed =>
        cases listed with
        | cons parted secondWord listed =>
          obtain ⟨-, -, rfl⟩ := firstWord
          obtain ⟨-, -, rfl⟩ := secondWord
          have whole : Listed Coordinates.Spells (⟨x, y⟩ :: others) _ :=
            .cons separator ⟨_, _, _, spellsX, parted, spellsY, rfl⟩
              (inductionHypothesis listed readOthers)
          simpa only [List.append_assoc] using whole

/-- Options are words of letters. -/
theorem listed_options_iff {found : List (List Char)} {body : List Char} :
    Listed SpellsOption found body ↔
      Listed SpellsWord found body ∧ found.all (·.all Char.isAlpha) = true := by
  constructor
  · intro listed
    induction listed with
    | nil => exact ⟨.nil, rfl⟩
    | cons separator first _ inductionHypothesis =>
      obtain ⟨nonempty, letters, rfl⟩ := first
      refine ⟨.cons separator ⟨nonempty, fun character member => ?_, rfl⟩ inductionHypothesis.1, ?_⟩
      · exact solid_of_test Char.isAlpha rfl rfl (letters character member)
      · rw [List.all_cons, inductionHypothesis.2, List.all_eq_true.mpr letters]
        rfl
  · rintro ⟨listed, letters⟩
    induction listed with
    | nil => exact .nil
    | cons separator first _ inductionHypothesis =>
      obtain ⟨nonempty, -, rfl⟩ := first
      rw [List.all_cons, Bool.and_eq_true] at letters
      exact .cons separator ⟨nonempty, List.all_eq_true.mp letters.1, rfl⟩
        (inductionHypothesis letters.2)

/-- The rules of a text are read one behind the other. -/
theorem rulesOf?_eq (text : List Char) : rulesOf? text =
    match skipGaps text with
    | [] => some []
    | first :: more =>
      match readRule (first :: more) with
      | none => none
      | some (rule, rest) => if endsItem rest then (rulesOf? rest).map (rule :: ·) else none := by
  rw [rulesOf?]
  split
  next nothing => rw [nothing]
  next first more skipped =>
    simp only [skipped]
    split
    next unread => rw [unread]
    next rule rest read => rw [read]

/-- The rules of a text behind a keyword. -/
theorem rulesOf?_eq_some_iff {text : List Char} (ends : endsItem text = true) {found : List Rule} :
    rulesOf? text = some found ↔
      ∃ body behind, Listed Rule.Spells found body ∧ Gaps behind ∧ text = body ++ behind := by
  constructor
  · intro read
    fun_induction rulesOf? text generalizing found with
    | case1 text nothing =>
      cases read
      obtain ⟨gaps, blank, parts, -⟩ := exists_gaps text
      rw [nothing, List.append_nil] at parts
      exact ⟨[], text, .nil, parts ▸ blank, rfl⟩
    | case2 text first more skipped unread => cases read
    | case3 text first more skipped rule rest readFirst _ restEnds inductionHypothesis =>
      obtain ⟨others, readOthers, rfl⟩ := Option.map_eq_some_iff.mp read
      obtain ⟨body, behind, listed, behindGaps, rfl⟩ := inductionHypothesis restEnds readOthers
      obtain ⟨spelt, spells, ruleParts, -⟩ := readRule_eq_some_iff.mp readFirst
      obtain ⟨gaps, blank, parts, solid⟩ := exists_gaps text
      -- The reader takes a rule without blanks in front of it; that there are some is known from
      -- the rule before it, or from the keyword.
      have separator : Separator gaps :=
        separator_of_endsItem blank (parts ▸ ends) (by simp [skipped]) solid
      refine ⟨gaps ++ (spelt ++ body), behind, .cons separator spells listed, behindGaps, ?_⟩
      rw [parts, skipped, ruleParts]
      simp
    | case4 text first more skipped rule rest readFirst _ notEnds => cases read
  · rintro ⟨body, behind, listed, gaps, rfl⟩
    clear ends
    induction listed with
    | nil =>
      rw [List.nil_append, rulesOf?_eq, gaps.skipGaps_self]
    | @cons gap spelt rest rule others separator spells listed inductionHypothesis =>
      have restEnds := listed.endsItem gaps
      have readFirst := readRule_eq_some_iff.mpr
        ⟨spelt, spells, rfl, stops_of_endsItem isReplacementCharacter rfl rfl restEnds⟩
      obtain ⟨first, more, rfl, solid⟩ := spells.head
      have skipped : skipGaps (gap ++ (first :: more ++ (rest ++ behind))) =
          first :: (more ++ (rest ++ behind)) :=
        separator.2.skipGaps (stops_cons solid)
      rw [List.cons_append] at readFirst
      rw [List.append_assoc, List.append_assoc, rulesOf?_eq, skipped]
      simp only [readFirst, restEnds, if_true, inductionHypothesis, Option.map_some]

theorem boundsOf?_eq_some_iff {text : List Char} {bounds : Bounds} :
    boundsOf? text = some bounds ↔ ∃ gaps spelt behind, Gaps gaps ∧ bounds.Spells spelt ∧
      Gaps behind ∧ text = gaps ++ (spelt ++ behind) := by
  constructor
  · intro found
    obtain ⟨gaps, blank, parts, -⟩ := exists_gaps text
    simp only [boundsOf?, Option.bind_eq_bind, Option.bind_eq_some_iff, Prod.exists,
      readBounds_eq_some_iff] at found
    obtain ⟨read, behind, ⟨spelt, spells, skipped⟩, found⟩ := found
    split at found
    next nothing =>
      cases found
      rw [List.isEmpty_iff, skipGaps, List.dropWhile_eq_nil_iff] at nothing
      exact ⟨gaps, spelt, behind, blank, spells, nothing, parts.trans (skipped ▸ rfl)⟩
    · cases found
  · rintro ⟨gaps, spelt, behind, blank, spells, behindGaps, rfl⟩
    have skipped : skipGaps (gaps ++ (spelt ++ behind)) = spelt ++ behind := by
      obtain ⟨more, rfl⟩ := spells.head
      exact blank.skipGaps (stops_cons rfl)
    simp [boundsOf?, skipped, readBounds_eq_some_iff.mpr ⟨spelt, spells, rfl⟩,
      behindGaps.skipGaps_self]

/-- The letter and the bounds of a text behind a keyword. -/
theorem templateOf?_eq_some_iff {text : List Char} (ends : endsItem text = true) {letter : Char}
    {bounds : Bounds} :
    templateOf? text = some (letter, bounds) ↔ ∃ gap between spelt behind, Separator gap ∧
      letter.isAlpha = true ∧ Separator between ∧ bounds.Spells spelt ∧ Gaps behind ∧
        text = gap ++ letter :: (between ++ (spelt ++ behind)) := by
  constructor
  · intro found
    obtain ⟨gaps, blank, parts, solid⟩ := exists_gaps text
    unfold templateOf? at found
    split at found
    · cases found
    next first rest skipped =>
      split at found
      next lettered =>
        obtain ⟨read, readBounds, same⟩ := Option.map_eq_some_iff.mp found
        cases same
        simp only [Bool.and_eq_true] at lettered
        obtain ⟨between, spelt, behind, betweenGaps, spells, behindGaps, rfl⟩ :=
          boundsOf?_eq_some_iff.mp readBounds
        obtain ⟨more, rfl⟩ := spells.head
        have separator : Separator gaps :=
          separator_of_endsItem blank (parts ▸ ends) (by simp [skipped]) solid
        have parted : Separator between :=
          separator_of_endsItem betweenGaps lettered.2 (by simp) (stops_cons rfl)
        exact ⟨gaps, between, _, behind, separator, lettered.1.1, parted, spells, behindGaps,
          parts.trans (skipped ▸ rfl)⟩
      · cases found
  · rintro ⟨gap, between, spelt, behind, separator, isLetter, parted, spells, behindGaps, rfl⟩
    have skipped : skipGaps (gap ++ letter :: (between ++ (spelt ++ behind))) =
        letter :: (between ++ (spelt ++ behind)) :=
      separator.2.skipGaps (stops_cons (solid_of_test Char.isAlpha rfl rfl isLetter))
    have read : boundsOf? (between ++ (spelt ++ behind)) = some bounds :=
      boundsOf?_eq_some_iff.mpr ⟨between, spelt, behind, parted.2, spells, behindGaps, rfl⟩
    simp [templateOf?, skipped, isLetter, parted.1, parted.endsItem, read]

/-- A text is read behind a keyword if it spells the items of the keyword. -/
theorem ofKeyword?_eq_some_iff {text : List Char} (ends : endsItem text = true)
    {keyword : Keyword} {statement : Statement} :
    ofKeyword? keyword text = some statement ↔ statement.keyword = keyword ∧
      ∃ body behind, statement.Body body ∧ Gaps behind ∧ text = body ++ behind := by
  constructor
  · intro found
    cases keyword with
    | place part =>
      simp only [ofKeyword?] at found
      split at found
      next first more places =>
        cases found
        obtain ⟨body, behind, listed, gaps, rfl⟩ := (words_eq_iff ends).mp rfl
        exact ⟨rfl, body, behind, .place (listed_coordinates_iff.mpr ⟨_, listed, places⟩), gaps,
          rfl⟩
      · cases found
    | window =>
      obtain ⟨bounds, bounded, rfl⟩ := Option.map_eq_some_iff.mp found
      obtain ⟨gaps, spelt, behind, blank, spells, behindGaps, rfl⟩ :=
        boundsOf?_eq_some_iff.mp bounded
      obtain ⟨more, rfl⟩ := spells.head
      have separator : Separator gaps :=
        separator_of_endsItem blank ends (by simp) (stops_cons rfl)
      exact ⟨rfl, _, behind, .window separator spells, behindGaps, by simp⟩
    | create product =>
      obtain ⟨⟨letter, bounds⟩, templated, rfl⟩ := Option.map_eq_some_iff.mp found
      obtain ⟨gap, between, spelt, behind, separator, isLetter, parted, spells, gaps, rfl⟩ :=
        (templateOf?_eq_some_iff ends).mp templated
      exact ⟨rfl, _, behind, .create separator isLetter parted spells, gaps, by simp⟩
    | options =>
      obtain ⟨body, behind, listed, gaps, rfl⟩ := (words_eq_iff ends).mp rfl
      simp only [ofKeyword?] at found
      split at found
      · cases found
      next some =>
        split at found
        next letters =>
          cases found
          exact ⟨rfl, body, behind, .options some (listed_options_iff.mpr ⟨listed, letters⟩), gaps,
            rfl⟩
        · cases found
    | rules =>
      simp only [ofKeyword?] at found
      split at found
      next first more spelt =>
        cases found
        obtain ⟨body, behind, listed, gaps, rfl⟩ := (rulesOf?_eq_some_iff ends).mp spelt
        exact ⟨rfl, body, behind, .rules (List.cons_ne_nil _ _) listed, gaps, rfl⟩
      · cases found
    | random product =>
      obtain ⟨body, behind, listed, gaps, rfl⟩ := (words_eq_iff ends).mp rfl
      simp only [ofKeyword?] at found
      split at found
      next word single =>
        obtain ⟨count, counted, rfl⟩ := Option.map_eq_some_iff.mp found
        rw [single] at listed
        obtain ⟨gap, _, separator, ⟨-, -, rfl⟩, rfl⟩ := Listed.singleton_iff.mp listed
        exact ⟨rfl, _, behind, .random separator (countOfWord?_eq_some_iff.mp counted), gaps, rfl⟩
      · cases found
  · rintro ⟨rfl, body, behind, spelt, gaps, rfl⟩
    cases spelt with
    | place listed =>
      obtain ⟨found, listed, places⟩ := listed_coordinates_iff.mp listed
      have split := (words_eq_iff ends).mpr ⟨body, behind, listed, gaps, rfl⟩
      simp only [Statement.keyword, ofKeyword?, split, places]
    | window separator spells =>
      have bounded := boundsOf?_eq_some_iff.mpr ⟨_, _, behind, separator.2, spells, gaps, rfl⟩
      rw [← List.append_assoc] at bounded
      simp only [Statement.keyword, ofKeyword?, bounded, Option.map_some]
    | @create product letter bounds gap between spelt separator isLetter parted spells =>
      have templated := (templateOf?_eq_some_iff ends).mpr
        ⟨gap, between, spelt, behind, separator, isLetter, parted, spells, gaps, by simp⟩
      simp only [Statement.keyword, ofKeyword?, templated, Option.map_some]
    | options nonempty listed =>
      obtain ⟨listed, letters⟩ := listed_options_iff.mp listed
      have split := (words_eq_iff ends).mpr ⟨body, behind, listed, gaps, rfl⟩
      obtain ⟨first, more, rfl⟩ := List.exists_cons_of_ne_nil nonempty
      simp only [Statement.keyword, ofKeyword?, split, letters, if_true]
    | rules nonempty listed =>
      have read := (rulesOf?_eq_some_iff ends).mpr ⟨body, behind, listed, gaps, rfl⟩
      obtain ⟨first, more, rfl⟩ := List.exists_cons_of_ne_nil nonempty
      simp only [Statement.keyword, ofKeyword?, read]
    | @random product count gap spelt separator spells =>
      have listed : Listed SpellsWord [spelt] (gap ++ spelt) :=
        Listed.singleton_iff.mpr ⟨gap, spelt, separator, spells.word, rfl⟩
      have split := (words_eq_iff ends).mpr ⟨_, behind, listed, gaps, rfl⟩
      simp only [Statement.keyword, ofKeyword?, split, countOfWord?_eq_some_iff.mpr spells,
        Option.map_some]

/-- The keyword of a spelling is the one it spells. -/
theorem Keyword.ofSpelling?_eq_some_iff {word : List Char} {keyword : Keyword} :
    Keyword.ofSpelling? word = some keyword ↔ word = keyword.spelling.toList := by
  constructor
  · intro found
    have spelt := List.find?_some found
    rw [decide_eq_true_eq] at spelt
    exact spelt.symm
  · rintro rfl
    rcases keyword with (_ | _ | _ | _) | _ | (_ | _) | _ | _ | (_ | _) <;> rfl

/-- The spelling of a keyword is a word. -/
theorem Keyword.spellsWord (keyword : Keyword) :
    SpellsWord keyword.spelling.toList keyword.spelling.toList := by
  have spelt : keyword.spelling.toList.isEmpty = false ∧
      keyword.spelling.toList.all Char.isAlpha = true := by
    rcases keyword with (_ | _ | _ | _) | _ | (_ | _) | _ | _ | (_ | _) <;> exact ⟨rfl, rfl⟩
  obtain ⟨nonempty, letters⟩ := spelt
  rw [List.all_eq_true] at letters
  refine ⟨List.isEmpty_eq_false_iff.mp nonempty, fun character member => ?_, rfl⟩
  exact solid_of_test Char.isAlpha rfl rfl (letters character member)

/-- The text of a statement behind its keyword can follow an item. -/
theorem Statement.Body.endsItem {statement : Statement} {body behind : List Char}
    (spelt : statement.Body body) (gaps : Gaps behind) :
    Statement.endsItem (body ++ behind) = true := by
  cases spelt with
  | place listed => exact listed.endsItem gaps
  | options _ listed => exact listed.endsItem gaps
  | rules _ listed => exact listed.endsItem gaps
  | window separator _ =>
    rw [List.append_assoc]
    exact separator.endsItem _
  | create separator _ _ _ =>
    rw [List.append_assoc]
    exact separator.endsItem _
  | random separator _ =>
    rw [List.append_assoc]
    exact separator.endsItem _

/-- The keyword of a line and the text behind it. -/
theorem Keyword.split_line (keyword : Keyword) {before rest : List Char} (blank : Gaps before)
    (ends : Statement.endsItem rest = true) :
    (skipGaps (before ++ (keyword.spelling.toList ++ rest))).takeWhile (!isGap ·) =
        keyword.spelling.toList ∧
      behindKeyword (before ++ (keyword.spelling.toList ++ rest)) = rest := by
  have word := keyword.spellsWord
  have inside : ∀ character ∈ keyword.spelling.toList, (!isGap character) = true := by
    simpa using word.2.1
  have stops := stops_of_endsItem (!isGap ·) rfl rfl ends
  rw [behindKeyword, blank.skipGaps (word.stops _)]
  exact ⟨takeWhile_run inside stops, dropWhile_run inside stops⟩

/-- A line is read as a statement just if it spells this statement. -/
theorem Statement.read_eq_some_iff {line : List Char} {statement : Statement} :
    read line = some statement ↔ statement.Spells line := by
  have reading : read line = some statement ↔ ∃ keyword : Keyword,
      (skipGaps line).takeWhile (!isGap ·) = keyword.spelling.toList ∧
        ofKeyword? keyword (behindKeyword line) = some statement := by
    simp only [read, Option.bind_eq_bind, Option.bind_eq_some_iff, Keyword.ofSpelling?_eq_some_iff,
      behindKeyword]
  rw [reading]
  constructor
  · rintro ⟨keyword, spelling, found⟩
    have ends := endsItem_of_stops (stops_dropWhile (!isGap ·) (skipGaps line))
    obtain ⟨rfl, body, behind, spelt, gaps, text⟩ := (ofKeyword?_eq_some_iff ends).mp found
    obtain ⟨before, blank, parts, -⟩ := exists_gaps line
    refine ⟨before, body, behind, blank, spelt, gaps, ?_⟩
    rw [parts, ← text, ← spelling, List.takeWhile_append_dropWhile]
  · rintro ⟨before, body, behind, blank, spelt, gaps, rfl⟩
    have ends := spelt.endsItem gaps
    obtain ⟨spelling, text⟩ := statement.keyword.split_line blank ends
    refine ⟨statement.keyword, spelling, ?_⟩
    rw [text]
    exact (ofKeyword?_eq_some_iff ends).mpr ⟨rfl, body, behind, spelt, gaps, rfl⟩

end SpringArm
