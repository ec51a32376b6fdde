import SpringArm.Text.Blank

/-!
# Lines

Every line end of a table is blank, so texts without blanks are never cut into lines, and nothing is
trimmed off them. The lines of a description are the pieces between its line feeds: there is one
more of them than line feeds, and a line feed between two texts separates their lines.
-/

namespace SpringArm.Text

/-- Every line end is blank. -/
theorem isLineBreak_of_not_blank {character : Char} (solid : isBlank character = false) :
    isLineBreak character = false := by
  simp only [isBlank, blankRanges, isLineBreak, lineBreakRanges, List.any_cons, List.any_nil,
    Bool.or_eq_false_iff, Bool.and_eq_false_iff, decide_eq_false_iff_not, and_true] at *
  omega

/-- Where no character is to be dropped, nothing is dropped at the ends. -/
theorem dropEnds_solid {drops : Char → Bool} {text : List Char}
    (solid : ∀ character ∈ text, drops character = false) :
    dropEndWhile drops (text.dropWhile drops) = text := by
  have kept : ∀ {part : List Char}, (∀ character ∈ part, drops character = false) →
      part.dropWhile drops = part := by
    intro part solid
    cases part with
    | nil => rfl
    | cons first rest =>
      rw [List.dropWhile_cons_of_neg]
      simp [solid first List.mem_cons_self]
  rw [kept solid, dropEndWhile, kept, List.reverse_reverse]
  intro character member
  exact solid character (List.mem_reverse.mp member)

/-- A text without blanks has none to be trimmed. -/
theorem trim_solid {text : List Char} (solid : ∀ character ∈ text, isBlank character = false) :
    trim text = text :=
  dropEnds_solid solid

theorem trimNumber_solid {text : List Char}
    (solid : ∀ character ∈ text, isBlank character = false) : trimNumber text = text :=
  dropEnds_solid fun character member => by rw [isNumberBlank, solid character member]; rfl

/-- A line reaches up to its line feed. -/
theorem tableLinesFrom_line {line text rest : List Char}
    (unbroken : ∀ character ∈ text, isLineBreak character = false) :
    tableLinesFrom line (text ++ '\n' :: rest) =
      (line.reverse ++ text) :: tableLinesFrom [] rest := by
  induction text generalizing line with
  | nil =>
    have feed : isLineBreak '\n' = true := rfl
    simp [tableLinesFrom, feed]
  | cons character more inductionHypothesis =>
    obtain ⟨first, others⟩ := List.forall_mem_cons.mp unbroken
    rw [List.cons_append, tableLinesFrom]
    · rw [first, if_neg Bool.false_ne_true, inductionHypothesis others]
      simp
    · rintro _ rfl
      exact absurd first (by decide)

/-- Lines with a line feed behind each of them. -/
theorem tableLines_flatMap {lines : List (List Char)}
    (unbroken : ∀ line ∈ lines, ∀ character ∈ line, isLineBreak character = false) :
    tableLines (lines.flatMap (· ++ ['\n'])) = lines := by
  induction lines with
  | nil => rfl
  | cons line rest inductionHypothesis =>
    obtain ⟨first, others⟩ := List.forall_mem_cons.mp unbroken
    rw [List.flatMap_cons, List.append_assoc, List.singleton_append, tableLines,
      tableLinesFrom_line first]
    exact congrArg (line :: ·) (inductionHypothesis others)

/-- Without carriage returns all line ends are alike. -/
theorem unifyLineEnds_eq_self {text : List Char} (noReturn : '\r' ∉ text) :
    unifyLineEnds text = text := by
  induction text with
  | nil => rfl
  | cons character rest inductionHypothesis =>
    rw [List.mem_cons, not_or] at noReturn
    rw [unifyLineEnds, inductionHypothesis noReturn.2]
    · rintro _ rfl
      exact absurd rfl noReturn.1
    · rintro rfl
      exact absurd rfl noReturn.1

/-- Every text has a first piece. -/
theorem splitLineFeeds_ne_nil (text : List Char) : splitLineFeeds text ≠ [] := by
  unfold splitLineFeeds
  split
  · exact List.cons_ne_nil _ _
  · exact List.cons_ne_nil _ _
  · split <;> exact List.cons_ne_nil _ _

/-- A character other than a line feed belongs to the first piece. -/
theorem splitLineFeeds_cons {character : Char} (noFeed : character ≠ '\n') (rest : List Char) :
    ∃ line lines, splitLineFeeds rest = line :: lines ∧
      splitLineFeeds (character :: rest) = (character :: line) :: lines := by
  obtain ⟨line, lines, pieces⟩ := List.exists_cons_of_ne_nil (splitLineFeeds_ne_nil rest)
  refine ⟨line, lines, pieces, ?_⟩
  rw [splitLineFeeds, pieces]
  exact noFeed

/-- A text without line feeds is one piece. -/
theorem splitLineFeeds_unbroken {text : List Char} (noFeed : '\n' ∉ text) :
    splitLineFeeds text = [text] := by
  induction text with
  | nil => rfl
  | cons character rest inductionHypothesis =>
    rw [List.mem_cons, not_or] at noFeed
    obtain ⟨line, lines, pieces, longer⟩ := splitLineFeeds_cons (Ne.symm noFeed.1) rest
    rw [inductionHypothesis noFeed.2] at pieces
    cases pieces
    exact longer

theorem length_splitLineFeeds (text : List Char) :
    (splitLineFeeds text).length = text.count '\n' + 1 := by
  induction text with
  | nil => rfl
  | cons character rest inductionHypothesis =>
    by_cases feed : character = '\n'
    · rw [feed, splitLineFeeds, List.length_cons, inductionHypothesis, List.count_cons_self]
    · obtain ⟨line, lines, pieces, longer⟩ := splitLineFeeds_cons feed rest
      rw [pieces] at inductionHypothesis
      rw [longer, List.count_cons_of_ne feed]
      exact inductionHypothesis

theorem splitLineFeeds_append (first second : List Char) :
    splitLineFeeds (first ++ '\n' :: second) = splitLineFeeds first ++ splitLineFeeds second := by
  induction first with
  | nil => rfl
  | cons character rest inductionHypothesis =>
    by_cases feed : character = '\n'
    · rw [feed, List.cons_append, splitLineFeeds, splitLineFeeds, inductionHypothesis,
        List.cons_append]
    · obtain ⟨line, lines, pieces, longer⟩ := splitLineFeeds_cons feed rest
      obtain ⟨whole, others, allPieces, allLonger⟩ :=
        splitLineFeeds_cons feed (rest ++ '\n' :: second)
      rw [inductionHypothesis, pieces, List.cons_append, List.cons.injEq] at allPieces
      rw [List.cons_append, allLonger, longer, ← allPieces.1, ← allPieces.2, List.cons_append]

end SpringArm.Text
