import SpringArm.Proofs.Blueprint.Skeleton
import SpringArm.Proofs.Graph.Renaming
import SpringArm.Proofs.Text.Lines

/-!
# Descriptions one behind the other

A description that consists of two others says what they say, one after the other. Lines, statements
and problems of the whole are those of its two parts, where the problems of the second part lie
lower by the lines of the first. A blueprint holds what its statements tell, so the blueprint of the
whole can be read off those of the parts. Only the arm segments do not come from single statements:
they depend on all of them.
-/

namespace SpringArm

namespace Templates

/-- The letters of a table, in the order in which they first came. -/
def letters (templates : Templates) : List Char :=
  templates.map (·.1)

/-- A table brought up to date with a second one: the second one decides where it has a distance,
and letters keep the place at which they first came. -/
structure Updated (first second whole : Templates) : Prop where
  find?_eq : ∀ letter, whole.find? letter = (second.find? letter).or (first.find? letter)
  letters_eq : whole.letters = first.letters ++ second.letters.filter (· ∉ first.letters)
  nodup : whole.letters.Nodup

theorem find?_put (templates : Templates) (letter other : Char) (distance : Interval) :
    (templates.put letter distance).find? other =
      if other = letter then some distance else templates.find? other := by
  induction templates with
  | nil =>
    by_cases same : other = letter
    · simp [put, find?, same]
    · simp [put, find?, List.lookup_cons, beq_eq_false_iff_ne.mpr same, same]
  | cons entry rest inductionHypothesis =>
    obtain ⟨known, old⟩ := entry
    simp only [find?] at inductionHypothesis ⊢
    by_cases isKnown : known = letter
    · by_cases same : other = letter
      · simp [put, isKnown, same]
      · simp [put, isKnown, same, List.lookup_cons, beq_eq_false_iff_ne.mpr same]
    · by_cases otherKnown : other = known
      · simp [put, isKnown, otherKnown]
      · simp [put, isKnown, List.lookup_cons, beq_eq_false_iff_ne.mpr otherKnown,
          inductionHypothesis]

@[simp] theorem letters_cons (letter : Char) (distance : Interval) (rest : Templates) :
    letters ((letter, distance) :: rest) = letter :: letters rest := rfl

/-- A letter keeps its place when it gets another distance. -/
theorem letters_put_of_mem {templates : Templates} {letter : Char}
    (old : letter ∈ templates.letters) (distance : Interval) :
    (templates.put letter distance).letters = templates.letters := by
  induction templates with
  | nil => exact absurd old List.not_mem_nil
  | cons entry rest inductionHypothesis =>
    obtain ⟨known, _⟩ := entry
    by_cases same : known = letter
    · simp [put, same]
    · have later : letter ∈ letters rest := by simpa [Ne.symm same] using old
      simp [put, same, inductionHypothesis later]

/-- A new letter is put behind all others. -/
theorem letters_put_of_not_mem {templates : Templates} {letter : Char}
    (new : letter ∉ templates.letters) (distance : Interval) :
    (templates.put letter distance).letters = templates.letters ++ [letter] := by
  induction templates with
  | nil => rfl
  | cons entry rest inductionHypothesis =>
    obtain ⟨known, _⟩ := entry
    rw [letters_cons, List.mem_cons, not_or] at new
    simp [put, Ne.symm new.1, inductionHypothesis new.2]

/-- No letter has two places. -/
theorem nodup_letters_put {templates : Templates} (nodup : templates.letters.Nodup) (letter : Char)
    (distance : Interval) : (templates.put letter distance).letters.Nodup := by
  by_cases old : letter ∈ templates.letters
  · rw [letters_put_of_mem old]
    exact nodup
  · rw [letters_put_of_not_mem old]
    exact nodup.append (List.nodup_singleton letter) (by simpa using old)

theorem putAll_concat (templates : Templates) (given : List (Char × Interval)) (letter : Char)
    (distance : Interval) : templates.putAll (given ++ [(letter, distance)]) =
      (templates.putAll given).put letter distance :=
  List.foldl_concat ..

/-- Giving distances to letters of a table is giving them to letters of an empty one, and bringing
the table up to date with it. -/
theorem updated_putAll {templates : Templates} (nodup : templates.letters.Nodup)
    (given : List (Char × Interval)) :
    Updated templates (putAll [] given) (templates.putAll given) := by
  -- A letter is put behind those given before it, so the induction takes off the last one.
  induction given using List.reverseRecOn with
  | nil => exact ⟨fun _ => rfl, (List.append_nil _).symm, nodup⟩
  | append_singleton given last inductionHypothesis =>
    obtain ⟨letter, distance⟩ := last
    obtain ⟨find, letters, nodup⟩ := inductionHypothesis
    rw [putAll_concat, putAll_concat]
    refine ⟨fun other => ?_, ?_, ?_⟩
    · rw [find?_put, find?_put, find]
      split <;> rfl
    · by_cases inSecond : letter ∈ (putAll [] given).letters
      · have inWhole : letter ∈ (templates.putAll given).letters := by
          rw [letters]
          by_cases inFirst : letter ∈ templates.letters <;> simp [inFirst, inSecond]
        rw [letters_put_of_mem inWhole, letters_put_of_mem inSecond, letters]
      · by_cases inFirst : letter ∈ templates.letters
        · have inWhole : letter ∈ (templates.putAll given).letters := by simp [letters, inFirst]
          rw [letters_put_of_mem inWhole, letters_put_of_not_mem inSecond, letters]
          simp [inFirst]
        · have notInWhole : letter ∉ (templates.putAll given).letters := by
            simp [letters, inFirst, inSecond]
          rw [letters_put_of_not_mem notInWhole, letters_put_of_not_mem inSecond, letters]
          simp [inFirst]
    · exact nodup_letters_put nodup letter distance

end Templates

private theorem zipIdx_raised {α : Type} (items : List α) (start : Nat) :
    items.zipIdx start = items.zipIdx.map fun (item, index) => (item, index + start) :=
  (List.map_snd_add_zipIdx_eq_zipIdx (l := items) (n := start) (k := 0)).symm

/-- A problem of a text that lies below some lines. -/
def Problem.below (lines : Nat) (problem : Problem) : Problem :=
  { problem with position := problem.position + lines }

/-- The number of lines of a description: one more than its line feeds. -/
def Reading.lineCount (text : List Char) : Nat :=
  text.count '\n' + 1

/-- A statement can be carried out: it gives no count that is out of reach. -/
def Statement.InReach : Statement → Prop
  | random _ count => ∃ number, count.value = .ok number
  | _ => True

/-- Whether a statement can be carried out does not depend on what was read before. -/
theorem Blueprint.apply_succeeds_iff (blueprint : Blueprint) (statement : Statement) :
    (∃ applied, blueprint.apply statement = .ok applied) ↔ statement.InReach := by
  cases statement with
  | random product count => simp [Blueprint.apply, Statement.InReach, bind_eq_ok, pure, Except.pure]
  | _ => exact ⟨fun _ => trivial, fun _ => ⟨_, rfl⟩⟩

namespace Reading

theorem readLine_succeeds_iff (reading : Reading) (line : List Char × Nat) :
    (∃ next, reading.readLine line = .ok next) ↔
      ∀ statement ∈ Statement.read line.1, statement.InReach := by
  obtain ⟨text, number⟩ := line
  simp only [readLine]
  cases read : Statement.read text with
  | none =>
    refine ⟨fun _ => by simp, fun _ => ?_⟩
    split <;> exact ⟨_, rfl⟩
  | some statement =>
    rw [if_pos (Statement.carriesData_of_read read)]
    simp [bind_eq_ok, ← reading.blueprint.apply_succeeds_iff statement, pure, Except.pure]

/-- A description is read if all its statements can be carried out. -/
theorem ofText_succeeds_iff (text : List Char) :
    (ofText text).2 = none ↔ ∀ statement ∈ statements text, statement.InReach := by
  rw [ofText, stepwise_succeeds_iff readLine_succeeds_iff]
  simp only [statements, List.mem_filterMap]
  constructor
  · rintro each statement ⟨line, member, read⟩
    exact each line member statement read
  · intro each line member statement read
    exact each statement ⟨line, member, read⟩

/-- The lines of the second description follow those of the first. -/
theorem numberedLines_append (first second : List Char) :
    numberedLines (first ++ '\n' :: second) = numberedLines first ++
      (numberedLines second).map fun (line, number) => (line, number + lineCount first) := by
  simp only [numberedLines, Text.splitLineFeeds_append, List.map_append, List.zipIdx_append,
    List.length_map, Text.length_splitLineFeeds, Nat.zero_add]
  exact congrArg _ (zipIdx_raised _ _)

/-- The statements of the second description follow those of the first. -/
theorem statements_append (first second : List Char) :
    statements (first ++ '\n' :: second) = statements first ++ statements second := by
  rw [statements, numberedLines_append, List.filterMap_append, List.filterMap_map]
  rfl

/-- The problems of the second description follow those of the first, lower by its lines. -/
theorem lineProblems_append (first second : List Char) :
    (numberedLines (first ++ '\n' :: second)).filterMap lineProblem? =
      (numberedLines first).filterMap lineProblem? ++
        ((numberedLines second).filterMap lineProblem?).map (Problem.below (lineCount first)) := by
  rw [numberedLines_append, List.filterMap_append, List.filterMap_map, List.map_filterMap]
  congr 1
  apply List.filterMap_congr
  rintro ⟨line, number⟩ -
  simp only [Function.comp, lineProblem?]
  split <;> rfl

end Reading

/-- Keys raised by a number. -/
def Renaming.raised (steps : Nat) : Renaming where
  key old := old + steps
  injective := fun _ _ same => Nat.add_right_cancel same
  start := 0
  key_succ := fun _ _ => Nat.add_right_comm ..

/-- Parts that are placed behind others have raised keys. -/
theorem placedMasses_raised (firstKey : Nat) (placed : List (Part × Coordinates)) :
    placedMasses firstKey placed =
      (placedMasses 0 placed).map (Mass.rename (.raised firstKey)) := by
  rw [placedMasses, zipIdx_raised, List.map_map, placedMasses, List.map_map]
  rfl

namespace Blueprint

/-- The parts of a blueprint: all masses of its graph but the arm segments. -/
def parts (blueprint : Blueprint) : List Mass :=
  blueprint.graph.masses.filter (·.kind != .armSegment)

/-- A blueprint says what two others say, one after the other. Masses have the keys of their places,
so those of the second one have raised keys. -/
structure Composed (first second whole : Blueprint) : Prop where
  parts : whole.parts =
    first.parts ++ second.parts.map (Mass.rename (.raised first.parts.length))
  inputs : whole.inputs =
    first.inputs ++ second.inputs.map (Mass.rename (.raised first.parts.length))
  /-- A joint of the second blueprint takes over from one of the first. -/
  shoulder : whole.shoulder =
    (second.shoulder.map (Mass.rename (.raised first.parts.length))).or first.shoulder
  elbow : whole.elbow =
    (second.elbow.map (Mass.rename (.raised first.parts.length))).or first.elbow
  hand : whole.hand =
    (second.hand.map (Mass.rename (.raised first.parts.length))).or first.hand
  rules : whole.rules = first.rules ++ second.rules
  massTemplates : Templates.Updated first.massTemplates second.massTemplates whole.massTemplates
  springTemplates :
    Templates.Updated first.springTemplates second.springTemplates whole.springTemplates
  switches : ∀ switch,
    whole.switches.has switch = (first.switches.has switch || second.switches.has switch)

namespace Skeleton

variable {blueprint : Blueprint} {placed : List (Part × Coordinates)}

/-- The parts of a skeleton are the masses that were placed. -/
theorem parts_eq (skeleton : blueprint.Skeleton placed) :
    blueprint.parts = placedMasses 0 placed := by
  have parts : (placedMasses 0 placed).filter (·.kind != .armSegment) = placedMasses 0 placed := by
    rw [List.filter_eq_self]
    intro mass member
    obtain ⟨⟨⟨part, place⟩, key⟩, -, rfl⟩ := List.mem_map.mp member
    cases part <;> rfl
  have segments : (blueprint.upperSegment.toList ++ blueprint.lowerSegment.toList).filter
      (·.kind != .armSegment) = [] := by
    rw [List.filter_eq_nil_iff]
    simp only [List.mem_append, Option.mem_toList]
    rintro mass (member | member)
    · simp [(skeleton.upper.place mass member).1]
    · simp [(skeleton.lower.place mass member).1]
  rw [Blueprint.parts, skeleton.masses, List.filter_append, parts, segments, List.append_nil]

/-- Joints and inputs are parts. -/
theorem parts_ofKind {kind : MassKind} (noSegment : kind ≠ .armSegment) :
    blueprint.parts.filter (·.kind == kind) = blueprint.graph.masses.filter (·.kind == kind) := by
  rw [Blueprint.parts, List.filter_filter]
  apply List.filter_congr
  intro mass _
  by_cases same : mass.kind = kind <;> simp [same, noSegment]

end Skeleton

/-- Where parts are placed one after the other, the masses of the second description follow those of
the first. -/
theorem Skeleton.parts_append {first second whole : Blueprint}
    {firstPlaced secondPlaced : List (Part × Coordinates)}
    (firstSkeleton : first.Skeleton firstPlaced) (secondSkeleton : second.Skeleton secondPlaced)
    (skeleton : whole.Skeleton (firstPlaced ++ secondPlaced)) :
    whole.parts = first.parts ++ second.parts.map (Mass.rename (.raised first.parts.length)) := by
  have count : first.parts.length = firstPlaced.length := by
    rw [firstSkeleton.parts_eq, placedMasses, List.length_map, List.length_zipIdx]
  rw [skeleton.parts_eq, placedMasses_append, count, firstSkeleton.parts_eq,
    secondSkeleton.parts_eq, Nat.zero_add, placedMasses_raised firstPlaced.length]

/-- The masses of a kind of part follow each other in the same way. -/
theorem Skeleton.filter_append {first second whole : Blueprint}
    {firstPlaced secondPlaced : List (Part × Coordinates)}
    (firstSkeleton : first.Skeleton firstPlaced) (secondSkeleton : second.Skeleton secondPlaced)
    (skeleton : whole.Skeleton (firstPlaced ++ secondPlaced)) {kind : MassKind}
    (noSegment : kind ≠ .armSegment) :
    whole.graph.masses.filter (·.kind == kind) = first.graph.masses.filter (·.kind == kind) ++
      (second.graph.masses.filter (·.kind == kind)).map
        (Mass.rename (.raised first.parts.length)) := by
  rw [← parts_ofKind noSegment, ← parts_ofKind noSegment, ← parts_ofKind noSegment,
    firstSkeleton.parts_append secondSkeleton skeleton, List.filter_append, List.filter_map]
  rfl

/-- The last mass of a kind of part is one of the second description, if this has one. -/
theorem Skeleton.last_append {first second whole : Blueprint}
    {firstPlaced secondPlaced : List (Part × Coordinates)}
    (firstSkeleton : first.Skeleton firstPlaced) (secondSkeleton : second.Skeleton secondPlaced)
    (skeleton : whole.Skeleton (firstPlaced ++ secondPlaced)) {kind : MassKind}
    (noSegment : kind ≠ .armSegment) :
    lastOfKind? whole.graph.masses kind = ((lastOfKind? second.graph.masses kind).map
      (Mass.rename (.raised first.parts.length))).or (lastOfKind? first.graph.masses kind) := by
  simp only [lastOfKind?, firstSkeleton.filter_append secondSkeleton skeleton noSegment,
    List.getLast?_append, List.getLast?_map]

/-- The letters that are told one after the other. -/
theorem Told.templates_append {first second whole : Blueprint}
    {firstTold secondTold : List Statement}
    (toldFirst : first.Told firstTold) (toldSecond : second.Told secondTold)
    (told : whole.Told (firstTold ++ secondTold)) (product : Product) :
    Templates.Updated (first.templates product) (second.templates product)
      (whole.templates product) := by
  have noLetters : (Templates.letters []).Nodup := List.nodup_nil
  have nodup := (Templates.updated_putAll noLetters
    (firstTold.filterMap (Statement.template? product))).nodup
  rw [told.templates, List.filterMap_append, Templates.putAll_append, toldFirst.templates,
    toldSecond.templates]
  exact Templates.updated_putAll nodup _

/-- If two descriptions are read, so is the one that consists of them. Its problems and its
blueprint are those of the two, one after the other. -/
theorem read_composed {first second : List Char} {firstBlueprint secondBlueprint : Blueprint}
    {firstProblems secondProblems : List Problem}
    (readFirst : (Blueprint.read (some first)).value = .ok (firstBlueprint, firstProblems))
    (readSecond : (Blueprint.read (some second)).value = .ok (secondBlueprint, secondProblems)) :
    ∃ whole, (Blueprint.read (some (first ++ '\n' :: second))).value =
        .ok (whole, firstProblems ++ secondProblems.map (.below (Reading.lineCount first))) ∧
      Composed firstBlueprint secondBlueprint whole := by
  obtain ⟨firstReading, firstDone, rfl, rfl⟩ := read_eq_ok_iff.mp readFirst
  obtain ⟨secondReading, secondDone, rfl, rfl⟩ := read_eq_ok_iff.mp readSecond
  have inReach : ∀ statement ∈ Reading.statements (first ++ '\n' :: second),
      statement.InReach := by
    rw [Reading.statements_append, List.forall_mem_append]
    exact ⟨(Reading.ofText_succeeds_iff first).mp (congrArg (·.2) firstDone),
      (Reading.ofText_succeeds_iff second).mp (congrArg (·.2) secondDone)⟩
  obtain ⟨reading, done⟩ :
      ∃ reading, Reading.ofText (first ++ '\n' :: second) = (reading, none) :=
    ⟨_, Prod.ext rfl ((Reading.ofText_succeeds_iff _).mpr inReach)⟩
  obtain ⟨toldFirst, problemsFirst⟩ := Reading.ofText_told firstDone
  obtain ⟨toldSecond, problemsSecond⟩ := Reading.ofText_told secondDone
  obtain ⟨told, problems⟩ := Reading.ofText_told done
  rw [Reading.lineProblems_append, ← problemsFirst, ← problemsSecond] at problems
  rw [Reading.statements_append] at told
  have firstSkeleton := Reading.ofText_skeleton firstDone
  have secondSkeleton := Reading.ofText_skeleton secondDone
  have skeleton := Reading.ofText_skeleton done
  rw [Reading.statements_append, List.filterMap_append] at skeleton
  refine ⟨_, read_eq_ok_iff.mpr ⟨reading, done, rfl, problems⟩, ?_⟩
  exact {
    parts := firstSkeleton.parts_append secondSkeleton skeleton
    inputs := by
      rw [skeleton.inputs, firstSkeleton.inputs, secondSkeleton.inputs]
      exact firstSkeleton.filter_append secondSkeleton skeleton (by decide)
    shoulder := by
      rw [skeleton.shoulder, firstSkeleton.shoulder, secondSkeleton.shoulder]
      exact firstSkeleton.last_append secondSkeleton skeleton (by decide)
    elbow := by
      rw [skeleton.elbow, firstSkeleton.elbow, secondSkeleton.elbow]
      exact firstSkeleton.last_append secondSkeleton skeleton (by decide)
    hand := by
      rw [skeleton.hand, firstSkeleton.hand, secondSkeleton.hand]
      exact firstSkeleton.last_append secondSkeleton skeleton (by decide)
    rules := by
      have rules := told.rules
      rw [List.flatMap_append, ← toldFirst.rules, ← toldSecond.rules] at rules
      exact rules
    massTemplates := toldFirst.templates_append toldSecond told .mass
    springTemplates := toldFirst.templates_append toldSecond told .spring
    switches := by
      intro switch
      have set := told.switches switch
      rw [List.flatMap_append, List.contains_append, ← toldFirst.switches,
        ← toldSecond.switches] at set
      exact set }

/-- An upper arm: two letters make masses, and the last line has no meaning. -/
def upperArmDescription : List Char :=
  "shoulder 0 0\ncreateMass a [1, 8]\ncreateMass b [1, 2]\nelbow 0 5\n\nwrist 0 7".toList

/-- A lower arm with a shoulder of its own: one letter gets another distance, one is new, and the
second line has no meaning. -/
def lowerArmDescription : List Char :=
  "hand 0 10\r\nelbow five\nshoulder 1 0\ncreateMass c [3,4]\ncreateMass a [2,3]\ninput 0 1".toList

set_option maxRecDepth 4000 in
/-- The lower arm behind the upper one: its problems lie six lines lower, and the letter with the
new distance keeps its place. -/
theorem read_composed_arm : ∃ upper lower whole upperProblems lowerProblems,
    (Blueprint.read (some upperArmDescription)).value = .ok (upper, upperProblems) ∧
      (Blueprint.read (some lowerArmDescription)).value = .ok (lower, lowerProblems) ∧
      (Blueprint.read (some (upperArmDescription ++ '\n' :: lowerArmDescription))).value =
        .ok (whole, upperProblems ++ lowerProblems.map (.below 6)) ∧
      Composed upper lower whole ∧ whole.massTemplates.letters = ['a', 'b', 'c'] := by
  obtain ⟨upper, upperProblems, readUpper, upperChecked⟩ := read_checked (some upperArmDescription)
    (fun upper => upper.massTemplates.letters == ['a', 'b']) (by decide +kernel)
  obtain ⟨lower, lowerProblems, readLower, lowerChecked⟩ := read_checked (some lowerArmDescription)
    (fun lower => lower.massTemplates.letters == ['c', 'a']) (by decide +kernel)
  obtain ⟨whole, read, composed⟩ := read_composed readUpper readLower
  refine ⟨upper, lower, whole, upperProblems, lowerProblems, readUpper, readLower, read, composed,
    ?_⟩
  rw [composed.massTemplates.letters_eq, eq_of_beq upperChecked, eq_of_beq lowerChecked]
  decide

end Blueprint

end SpringArm
