import SpringArm.Blueprint.Reading
import SpringArm.Proofs.Blueprint.Arm

/-!
# Descriptions give described blueprints

Of all statements only places change the graph of a blueprint, each by one part of the skeleton. So
a blueprint is `Skeletal` after every line, and `Described` at the end.
-/

namespace SpringArm

theorem Part.kind_isPart (part : Part) : part.kind.isPart = true := by
  cases part <;> rfl

namespace Graph

variable (graph : Graph) (x y : Float)

theorem addMass_inputs {kind : MassKind} (noInput : kind ≠ .input) :
    (graph.addMass x y kind).2.inputs = graph.inputs := by
  simp [inputs, massesOfKind, noInput]

theorem addInput_inputs :
    (graph.addMass x y .input).2.inputs = graph.inputs ++ [(graph.addMass x y .input).1] := by
  simp [inputs, massesOfKind]

end Graph

namespace Blueprint

theorem Skeletal.empty : Skeletal {} := by
  refine ⟨Graph.Sound.empty 0, rfl, ?_, ?_, ?_, ?_, rfl⟩ <;> simp [Graph.empty]

/-- A part of the skeleton takes its place in the graph, and in the blueprint as what it is. -/
theorem Skeletal.addPart {blueprint : Blueprint} (skeletal : blueprint.Skeletal) (part : Part)
    (place : Coordinates) : (blueprint.addPart part place).Skeletal := by
  have sound := skeletal.sound.addMass place.x.value place.y.value part.kind
  have parts : ∀ mass ∈ (blueprint.graph.addMass place.x.value place.y.value part.kind).2.masses,
      mass.kind.isPart = true :=
    List.forall_mem_append.mpr
      ⟨skeletal.parts, List.forall_mem_singleton.mpr part.kind_isPart⟩
  have kept : ∀ {kind : MassKind} {mass : Mass},
      mass ∈ blueprint.graph.masses ∧ mass.kind = kind →
      mass ∈ (blueprint.graph.addMass place.x.value place.y.value part.kind).2.masses ∧
        mass.kind = kind :=
    fun old => ⟨List.mem_append_left _ old.1, old.2⟩
  have new : (blueprint.graph.addMass place.x.value place.y.value part.kind).1 ∈
      (blueprint.graph.addMass place.x.value place.y.value part.kind).2.masses :=
    List.mem_append_right _ (List.mem_singleton_self _)
  have shoulder := fun mass member => kept (skeletal.shoulder_mem mass member)
  have elbow := fun mass member => kept (skeletal.elbow_mem mass member)
  have hand := fun mass member => kept (skeletal.hand_mem mass member)
  cases part with
  | shoulder =>
    refine ⟨sound, skeletal.springless, parts, ?_, elbow, hand, ?_⟩
    · rintro _ ⟨⟩
      exact ⟨new, rfl⟩
    · exact skeletal.inputs_eq.trans (Graph.addMass_inputs _ _ _ (by decide)).symm
  | elbow =>
    refine ⟨sound, skeletal.springless, parts, shoulder, ?_, hand, ?_⟩
    · rintro _ ⟨⟩
      exact ⟨new, rfl⟩
    · exact skeletal.inputs_eq.trans (Graph.addMass_inputs _ _ _ (by decide)).symm
  | hand =>
    refine ⟨sound, skeletal.springless, parts, shoulder, elbow, ?_, ?_⟩
    · rintro _ ⟨⟩
      exact ⟨new, rfl⟩
    · exact skeletal.inputs_eq.trans (Graph.addMass_inputs _ _ _ (by decide)).symm
  | input =>
    refine ⟨sound, skeletal.springless, parts, shoulder, elbow, hand, ?_⟩
    have extended := Graph.addInput_inputs blueprint.graph place.x.value place.y.value
    rw [← skeletal.inputs_eq] at extended
    exact extended.symm

/-- A blueprint with the same graph, joints and inputs is as skeletal. -/
theorem Skeletal.congr {blueprint other : Blueprint} (skeletal : blueprint.Skeletal)
    (graph : other.graph = blueprint.graph) (shoulder : other.shoulder = blueprint.shoulder)
    (elbow : other.elbow = blueprint.elbow) (hand : other.hand = blueprint.hand)
    (inputs : other.inputs = blueprint.inputs) : other.Skeletal := by
  cases other
  subst graph shoulder elbow hand inputs
  exact ⟨skeletal.sound, skeletal.springless, skeletal.parts, skeletal.shoulder_mem,
    skeletal.elbow_mem, skeletal.hand_mem, skeletal.inputs_eq⟩

/-- Carrying out a statement keeps a blueprint skeletal. -/
theorem Skeletal.apply {blueprint : Blueprint} (skeletal : blueprint.Skeletal)
    {statement : Statement} {applied : Logged Blueprint}
    (done : blueprint.apply statement = .ok applied) : applied.value.Skeletal := by
  cases statement with
  | place part first more =>
    cases done
    exact skeletal.addPart part first
  | window bounds =>
    cases done
    exact skeletal.congr rfl rfl rfl rfl rfl
  | create product letter bounds =>
    cases done
    cases product <;> exact skeletal.congr rfl rfl rfl rfl rfl
  | options words =>
    cases done
    exact skeletal.congr rfl rfl rfl rfl rfl
  | rules rules =>
    cases done
    exact skeletal.congr rfl rfl rfl rfl rfl
  | random product count =>
    obtain ⟨number, -, done⟩ := bind_eq_ok.mp done
    cases done
    cases product <;> exact skeletal.congr rfl rfl rfl rfl rfl

end Blueprint

namespace Reading

/-- A line keeps the blueprint of a reading skeletal. -/
theorem readLine_skeletal {reading next : Reading} (skeletal : reading.blueprint.Skeletal)
    {line : List Char × Nat} (read : reading.readLine line = .ok next) :
    next.blueprint.Skeletal := by
  obtain ⟨text, number⟩ := line
  unfold readLine at read
  dsimp only at read
  split at read
  · split at read
    · cases read
      exact skeletal
    next statement _ =>
      obtain ⟨applied, done, read⟩ := bind_eq_ok.mp read
      cases read
      exact skeletal.apply done
  · cases read
    exact skeletal

/-- After all lines the blueprint is skeletal. -/
theorem ofText_skeletal (text : List Char) : (ofText text).1.blueprint.Skeletal :=
  stepwise_invariant (fun reading => reading.blueprint.Skeletal)
    Blueprint.Skeletal.empty fun _ _ _ _ skeletal read => readLine_skeletal skeletal read

end Reading

namespace Blueprint

/-- A description is read if all its lines are. Its blueprint has the segments in addition. -/
theorem read_eq_ok_iff {text : List Char} {blueprint : Blueprint} {problems : List Problem} :
    (Blueprint.read (some text)).value = .ok (blueprint, problems) ↔
      ∃ reading, Reading.ofText text = (reading, none) ∧
        reading.blueprint.connectSegments.value = blueprint ∧ reading.problems = problems := by
  cases ofText : Reading.ofText text with
  | mk reading fault =>
    cases fault with
    | some fault => simp [Blueprint.read, ofText]
    | none => simp [Blueprint.read, ofText, Reading.finish]

/-- What is read from a description is described. -/
theorem read_described {text : Option (List Char)} {blueprint : Blueprint}
    {problems : List Problem} (read : (Blueprint.read text).value = .ok (blueprint, problems)) :
    blueprint.Described := by
  cases text with
  | none =>
    cases read
    exact ⟨Graph.Sound.empty 0, by simp [Graph.Typed, Graph.empty], by simp [Graph.empty], rfl⟩
  | some characters =>
    obtain ⟨reading, done, rfl, -⟩ := read_eq_ok_iff.mp read
    have skeletal := Reading.ofText_skeletal characters
    rw [done] at skeletal
    exact skeletal.connectSegments

/-- Whatever can be checked of what is read from a text holds of it. -/
theorem read_checked (text : Option (List Char)) (check : Blueprint → Bool)
    (passes : ((Blueprint.read text).value.toOption.any fun reading => check reading.1) = true) :
    ∃ blueprint problems, (Blueprint.read text).value = .ok (blueprint, problems) ∧
      check blueprint = true := by
  cases read : (Blueprint.read text).value with
  | error fault => simp [read, Except.toOption] at passes
  | ok reading =>
    rw [read] at passes
    exact ⟨reading.1, reading.2, rfl, by simpa [Except.toOption] using passes⟩

end Blueprint

end SpringArm
