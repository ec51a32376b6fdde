import SpringArm.Proofs.Blueprint.Reading
import SpringArm.Proofs.Blueprint.Told

/-!
# The skeleton of a description

What the graph of a blueprint looks like that has been read from a description: first the parts that
its lines place, each at the first place of its line, then the arm segments, with just the springs
that these need. `Blueprint.Skeleton` says so without the functions that build the segments.
-/

namespace SpringArm

/-- The two ends of a spring, in its direction. -/
def Spring.ends (spring : Spring) : Mass × Mass :=
  (spring.source, spring.destination)

/-- The inputs whose height lies between those of two joints. -/
def inputsBetween (inputs : List Mass) (joint nextJoint : Mass) : List Mass :=
  inputs.filter fun input => joint.y ≤ input.y ∧ input.y ≤ nextJoint.y

/-- A segment between two joints: it exists exactly if both joints exist and two inputs lie between
them, and it is at the place of the first joint. -/
structure SegmentBetween (inputs : List Mass) (joint nextJoint segment : Option Mass) : Prop where
  exists_iff : segment.isSome ↔ ∃ first next, joint = some first ∧ nextJoint = some next ∧
    (inputsBetween inputs first next).length = 2
  place : ∀ mass ∈ segment, mass.kind = .armSegment ∧
    ∃ first, joint = some first ∧ mass.x = first.x ∧ mass.y = first.y

/-- The ends of the springs of a segment: both joints and the inputs between them, each with the
segment. -/
def segmentEnds (inputs : List Mass) (joint nextJoint segment : Option Mass) : List (Mass × Mass) :=
  match joint, nextJoint, segment with
  | some first, some next, some target =>
    (first :: next :: inputsBetween inputs first next).map (·, target)
  | _, _, _ => []

/-- The ends of the spring between two segments. -/
def joinedEnds (upper lower : Option Mass) : List (Mass × Mass) :=
  match upper, lower with
  | some upper, some lower => [(upper, lower)]
  | _, _ => []

/-- The graph of a blueprint with parts placed one after the other, and the masses that the
blueprint names. -/
structure Blueprint.Skeleton (blueprint : Blueprint) (placed : List (Part × Coordinates)) :
    Prop where
  /-- The parts come first, each as a new mass, and then the segments. -/
  masses : blueprint.graph.masses = placedMasses 0 placed ++
    (blueprint.upperSegment.toList ++ blueprint.lowerSegment.toList)
  distinct : (blueprint.graph.masses.map Mass.key).Nodup
  inputs : blueprint.inputs = blueprint.graph.inputs
  shoulder : blueprint.shoulder = lastOfKind? blueprint.graph.masses .shoulder
  elbow : blueprint.elbow = lastOfKind? blueprint.graph.masses .elbow
  hand : blueprint.hand = lastOfKind? blueprint.graph.masses .hand
  upper : SegmentBetween blueprint.inputs blueprint.shoulder blueprint.elbow blueprint.upperSegment
  lower : SegmentBetween blueprint.inputs blueprint.elbow blueprint.hand blueprint.lowerSegment
  springs : blueprint.graph.springs.map Spring.ends =
    segmentEnds blueprint.inputs blueprint.shoulder blueprint.elbow blueprint.upperSegment ++
    segmentEnds blueprint.inputs blueprint.elbow blueprint.hand blueprint.lowerSegment ++
    joinedEnds blueprint.upperSegment blueprint.lowerSegment

namespace Graph

/-- What the addition of a segment between two joints adds to a graph. -/
structure SegmentLaid (graph : Graph) (inputs : List Mass) (joint nextJoint : Option Mass)
    (result : Option Mass × Graph) : Prop where
  between : SegmentBetween inputs joint nextJoint result.1
  masses : result.2.masses = graph.masses ++ result.1.toList
  springs : result.2.springs.map Spring.ends =
    graph.springs.map Spring.ends ++ segmentEnds inputs joint nextJoint result.1

theorem addSegment_springs (graph : Graph) (joint nextJoint first second : Mass) :
    (graph.addSegment joint nextJoint (first, second)).2.springs.map Spring.ends =
      graph.springs.map Spring.ends ++ [joint, nextJoint, first, second].map
        (·, (graph.addSegment joint nextJoint (first, second)).1) := by
  simp [addSegment, Spring.ends, Spring.joining]

/-- No segment is added where a joint is missing or the number of inputs is not two. -/
theorem SegmentLaid.absent (graph : Graph) {inputs : List Mass} {joint nextJoint : Option Mass}
    (unlaid : ¬∃ first next, joint = some first ∧ nextJoint = some next ∧
      (inputsBetween inputs first next).length = 2) :
    graph.SegmentLaid inputs joint nextJoint (none, graph) where
  between := ⟨⟨fun some => by simp at some, fun laid => absurd laid unlaid⟩, by simp⟩
  masses := (List.append_nil _).symm
  springs := by cases joint <;> cases nextJoint <;> simp [segmentEnds]

/-- A segment is added where it belongs, and nowhere else. -/
theorem addSegmentBetween?_laid (graph : Graph) (inputs : List Mass) (missing : Nat → Notice)
    (joint nextJoint : Option Mass) : graph.SegmentLaid inputs joint nextJoint
      (graph.addSegmentBetween? inputs missing joint nextJoint).value := by
  have between : ∀ first next,
      massesBetween inputs first next = inputsBetween inputs first next := by
    intro first next
    simp [massesBetween, inputsBetween, Interval.contains]
  unfold addSegmentBetween?
  split
  next joint nextJoint =>
    rw [between]
    split
    next first second two =>
      refine ⟨⟨⟨fun _ => ⟨joint, nextJoint, rfl, rfl, by rw [two]; rfl⟩, fun _ => rfl⟩, ?_⟩, ?_, ?_⟩
      · rintro mass ⟨⟩
        exact ⟨rfl, joint, rfl, rfl, rfl⟩
      · simp [addSegment]
      · simp only [segmentEnds, two]
        exact graph.addSegment_springs joint nextJoint first second
    next others notTwo =>
      apply SegmentLaid.absent
      rintro ⟨_, _, ⟨⟩, ⟨⟩, two⟩
      obtain ⟨first, second, same⟩ := List.length_eq_two.mp two
      exact notTwo first second same
  next missingJoint =>
    apply SegmentLaid.absent
    rintro ⟨first, next, rfl, rfl, -⟩
    exact missingJoint first next rfl rfl

end Graph

/-- A segment is no joint, so behind the parts it leaves the last joints as they are. -/
theorem lastOfKind?_append_segments {parts segments : List Mass}
    (kinds : ∀ mass ∈ segments, mass.kind = .armSegment) {kind : MassKind}
    (noSegment : kind ≠ .armSegment) :
    lastOfKind? (parts ++ segments) kind = lastOfKind? parts kind := by
  have none : segments.filter (·.kind == kind) = [] := by
    rw [List.filter_eq_nil_iff]
    intro mass member
    simpa [kinds mass member] using noSegment.symm
  rw [lastOfKind?_append, lastOfKind?, none, List.getLast?_nil, Option.none_or]

namespace Blueprint

/-- The segments of an arm are laid one after the other, and a spring joins them if both exist. -/
theorem connectSegments_laid (blueprint : Blueprint) : ∃ withUpper withLower,
    blueprint.graph.SegmentLaid blueprint.inputs blueprint.shoulder blueprint.elbow
      (blueprint.connectSegments.value.upperSegment, withUpper) ∧
    withUpper.SegmentLaid blueprint.inputs blueprint.elbow blueprint.hand
      (blueprint.connectSegments.value.lowerSegment, withLower) ∧
    blueprint.connectSegments.value.graph.masses = withLower.masses ∧
    blueprint.connectSegments.value.graph.springs.map Spring.ends =
      withLower.springs.map Spring.ends ++
        joinedEnds blueprint.connectSegments.value.upperSegment
          blueprint.connectSegments.value.lowerSegment := by
  have upperLaid := blueprint.graph.addSegmentBetween?_laid blueprint.inputs .noUpperSegment
    blueprint.shoulder blueprint.elbow
  unfold Blueprint.connectSegments
  dsimp only
  generalize blueprint.graph.addSegmentBetween? blueprint.inputs .noUpperSegment
    blueprint.shoulder blueprint.elbow = upper at upperLaid ⊢
  obtain ⟨⟨upperSegment, withUpper⟩, _⟩ := upper
  have lowerLaid := withUpper.addSegmentBetween?_laid blueprint.inputs .noLowerSegment
    blueprint.elbow blueprint.hand
  generalize withUpper.addSegmentBetween? blueprint.inputs .noLowerSegment
    blueprint.elbow blueprint.hand = lower at lowerLaid ⊢
  obtain ⟨⟨lowerSegment, withLower⟩, _⟩ := lower
  refine ⟨withUpper, withLower, upperLaid, lowerLaid, ?_, ?_⟩
  · cases upperSegment <;> cases lowerSegment <;> rfl
  · cases upperSegment <;> cases lowerSegment <;> simp [joinedEnds, Spring.ends, Spring.joining]

/-- The segments complete the skeleton of what was told. -/
theorem Told.connectSegments {blueprint : Blueprint} {statements : List Statement}
    (told : blueprint.Told statements) (skeletal : blueprint.Skeletal) :
    blueprint.connectSegments.value.Skeleton (statements.filterMap Statement.placement?) := by
  have described := skeletal.connectSegments
  obtain ⟨withUpper, withLower, upperLaid, lowerLaid, sameMasses, springs⟩ :=
    blueprint.connectSegments_laid
  have masses : blueprint.connectSegments.value.graph.masses = blueprint.graph.masses ++
      (blueprint.connectSegments.value.upperSegment.toList ++
        blueprint.connectSegments.value.lowerSegment.toList) := by
    rw [sameMasses, lowerLaid.masses, upperLaid.masses, List.append_assoc]
  have segments : ∀ mass ∈ blueprint.connectSegments.value.upperSegment.toList ++
      blueprint.connectSegments.value.lowerSegment.toList, mass.kind = .armSegment := by
    simp only [List.mem_append, Option.mem_toList]
    rintro mass (member | member)
    · exact (upperLaid.between.place mass member).1
    · exact (lowerLaid.between.place mass member).1
  have joints : ∀ part, part ≠ .input → blueprint.joint? part =
      lastOfKind? blueprint.connectSegments.value.graph.masses part.kind := by
    intro part noInput
    rw [told.joints part noInput, masses, lastOfKind?_append_segments segments]
    cases part <;> decide
  exact {
    masses := by rw [masses, told.masses]
    distinct := described.sound.masses_nodup
    inputs := described.inputs_eq
    shoulder := joints .shoulder (by decide)
    elbow := joints .elbow (by decide)
    hand := joints .hand (by decide)
    upper := upperLaid.between
    lower := lowerLaid.between
    springs := by
      rw [springs, lowerLaid.springs, upperLaid.springs, skeletal.springless]
      rfl }

end Blueprint

/-- The parts that the lines of a description place, in the order of the lines: of each line its
first place. -/
def Reading.placements (text : Option (List Char)) : List (Part × Coordinates) :=
  (text.elim [] Reading.statements).filterMap Statement.placement?

/-- When all lines have been read the segments complete the skeleton of the parts that they
place. -/
theorem Reading.ofText_skeleton {text : List Char} {reading : Reading}
    (done : ofText text = (reading, none)) :
    reading.blueprint.connectSegments.value.Skeleton
      ((statements text).filterMap Statement.placement?) := by
  have skeletal := ofText_skeletal text
  rw [done] at skeletal
  exact (ofText_told done).1.connectSegments skeletal

/-- Whatever is read from a description has the skeleton of the parts that its lines place. -/
theorem Blueprint.read_skeleton {text : Option (List Char)} {blueprint : Blueprint}
    {problems : List Problem} (read : (Blueprint.read text).value = .ok (blueprint, problems)) :
    blueprint.Skeleton (Reading.placements text) := by
  cases text with
  | none =>
    cases read
    refine ⟨rfl, by decide, rfl, rfl, rfl, rfl, ⟨?_, by simp⟩, ⟨?_, by simp⟩, rfl⟩ <;> simp
  | some characters =>
    obtain ⟨reading, done, rfl, -⟩ := read_eq_ok_iff.mp read
    exact Reading.ofText_skeleton done

/-- An arm with both segments: the second shoulder counts, of its two places the first one, and one
input is at the height of the elbow. One line has no meaning. -/
def armDescription : List Char :=
  ("shoulder 9 9\ninput 0 5\nshoulder 0 0 7 7\nelbow 0 5\nwrist 0 7\nhand 0 10\ninput 0 1\n" ++
    "input 0 8").toList

set_option maxRecDepth 4000 in
/-- The arm has four joints, three inputs and two segments, with nine springs between them. -/
theorem Blueprint.read_skeleton_arm : ∃ blueprint problems,
    (Blueprint.read (some armDescription)).value = .ok (blueprint, problems) ∧
      blueprint.Skeleton (Reading.placements (some armDescription)) ∧
      blueprint.graph.masses.length = 9 ∧ blueprint.graph.springs.length = 9 := by
  obtain ⟨blueprint, problems, read, checked⟩ := read_checked (some armDescription)
    (fun blueprint => blueprint.graph.masses.length == 9 && blueprint.graph.springs.length == 9)
    (by decide +kernel)
  rw [Bool.and_eq_true, beq_iff_eq, beq_iff_eq] at checked
  exact ⟨blueprint, problems, read, read_skeleton read, checked.1, checked.2⟩

end SpringArm
