import SpringArm.Proofs.Blueprint.Recognition

/-!
# What a description tells

The statements of a description, and what they tell about a blueprint: where parts are placed, which
letters make something, which rules and switches there are. `Blueprint.CarriedOut` is the effect of
one statement. `Blueprint.Told` says that a blueprint holds just what a list of statements tells;
one more statement carried out is one more told, so it holds of all statements of a description when
its lines have been read.
-/

namespace SpringArm

namespace Statement

/-- The part that a statement places, with its place. -/
def placement? : Statement → Option (Part × Coordinates)
  | place part first _ => some (part, first)
  | _ => none

/-- The letter that a statement gives a distance at which it makes a product. -/
def template? (product : Product) : Statement → Option (Char × Interval)
  | create made letter bounds => if made = product then some (letter, bounds.interval) else none
  | _ => none

/-- The rules that a statement adds. -/
def addedRules : Statement → List Rule
  | rules added => added
  | _ => []

/-- The switches that a statement sets. -/
def setSwitches : Statement → List Switch
  | options words => words.filterMap Switch.ofSpelling?
  | _ => []

/-- A line that spells a statement carries data. -/
theorem carriesData_of_read {line : List Char} {statement : Statement}
    (found : read line = some statement) : Text.carriesData line = true := by
  obtain ⟨before, body, behind, blank, -, -, rfl⟩ := read_eq_some_iff.mp found
  obtain ⟨first, more, spelling, solid, noSign⟩ :
      ∃ first more, statement.keyword.spelling.toList = first :: more ∧
        Text.isBlank first = false ∧ first ≠ '#' := by
    rcases statement.keyword with (_ | _ | _ | _) | _ | (_ | _) | _ | _ | (_ | _) <;>
      exact ⟨_, _, rfl, by decide, by decide⟩
  have blanks : ∀ gap ∈ before, Text.isBlank gap = true := by
    intro gap member
    rcases isGap_cases (blank gap member) with rfl | rfl <;> rfl
  rw [spelling, List.cons_append]
  have trimmed : Text.trimStart (before ++ first :: (more ++ (body ++ behind))) =
      first :: (more ++ (body ++ behind)) :=
    dropWhile_run blanks (stops_cons solid)
  have notBlank : Text.isBlankText (before ++ first :: (more ++ (body ++ behind))) = false :=
    List.all_eq_false.mpr ⟨first, by simp, by simp [solid]⟩
  simp [Text.carriesData, Text.isComment, trimmed, notBlank, noSign]

end Statement

/-- The mass of a part at a place. -/
def placedMass (key : Nat) (placed : Part × Coordinates) : Mass :=
  ⟨key, placed.2.x.value, placed.2.y.value, placed.1.kind⟩

/-- The masses of placed parts, with keys from a number on. -/
def placedMasses (firstKey : Nat) (placed : List (Part × Coordinates)) : List Mass :=
  (placed.zipIdx firstKey).map fun (part, key) => placedMass key part

/-- The last mass of a kind. -/
def lastOfKind? (masses : List Mass) (kind : MassKind) : Option Mass :=
  (masses.filter (·.kind == kind)).getLast?

/-- The distances that letters are given one after the other. -/
def Templates.putAll (templates : Templates) (given : List (Char × Interval)) : Templates :=
  given.foldl (fun known (letter, distance) => known.put letter distance) templates

theorem placedMasses_append (firstKey : Nat) (first second : List (Part × Coordinates)) :
    placedMasses firstKey (first ++ second) =
      placedMasses firstKey first ++ placedMasses (firstKey + first.length) second := by
  simp [placedMasses, List.zipIdx_append]

theorem lastOfKind?_append (first second : List Mass) (kind : MassKind) :
    lastOfKind? (first ++ second) kind = (lastOfKind? second kind).or (lastOfKind? first kind) := by
  simp [lastOfKind?, List.getLast?_append]

theorem Templates.putAll_append (templates : Templates) (first second : List (Char × Interval)) :
    templates.putAll (first ++ second) = (templates.putAll first).putAll second :=
  List.foldl_append

theorem Switches.has_insertAll (switches : Switches) (added : List Switch) (switch : Switch) :
    (switches.insertAll added).has switch = (switches.has switch || added.contains switch) := by
  induction added generalizing switches with
  | nil => simp [insertAll]
  | cons first rest inductionHypothesis =>
    have inserted : (switches.insert first).has switch =
        (switches.has switch || switch == first) := by
      cases first <;> cases switch <;> simp [insert, has]
    rw [insertAll, List.foldl_cons, ← insertAll, inductionHypothesis, inserted, List.contains_cons,
      Bool.or_assoc]

private theorem filterMap_concat {α β : Type} (view : α → Option β) (items : List α) (item : α) :
    (items ++ [item]).filterMap view = items.filterMap view ++ (view item).toList := by
  cases seen : view item <;> simp [seen]

namespace Blueprint

/-- The joint of a blueprint that a part is. -/
def joint? (blueprint : Blueprint) : Part → Option Mass
  | .shoulder => blueprint.shoulder
  | .elbow => blueprint.elbow
  | .hand => blueprint.hand
  | .input => none

/-- The letters that make a product. -/
def templates (blueprint : Blueprint) : Product → Templates
  | .mass => blueprint.massTemplates
  | .spring => blueprint.springTemplates

/-- The effect of a statement on what is told of parts, letters, rules and switches. -/
structure CarriedOut (before : Blueprint) (statement : Statement) (after : Blueprint) : Prop where
  masses : after.graph.masses =
    before.graph.masses ++ placedMasses before.graph.nextKey statement.placement?.toList
  nextKey : after.graph.nextKey = before.graph.nextKey + statement.placement?.toList.length
  joints : ∀ part, part ≠ .input → after.joint? part =
    (lastOfKind? (placedMasses before.graph.nextKey statement.placement?.toList) part.kind).or
      (before.joint? part)
  rules : after.rules = before.rules ++ statement.addedRules
  templates : ∀ product,
    after.templates product = (before.templates product).putAll (statement.template? product).toList
  switches : ∀ switch, after.switches.has switch =
    (before.switches.has switch || statement.setSwitches.contains switch)

/-- A statement that places no part leaves the graph and the joints alone. -/
theorem CarriedOut.unplaced {before after : Blueprint} {statement : Statement}
    (places : statement.placement? = none) (graph : after.graph = before.graph)
    (joints : ∀ part, after.joint? part = before.joint? part)
    (rules : after.rules = before.rules ++ statement.addedRules)
    (templates : ∀ product, after.templates product =
      (before.templates product).putAll (statement.template? product).toList)
    (switches : ∀ switch, after.switches.has switch =
      (before.switches.has switch || statement.setSwitches.contains switch)) :
    before.CarriedOut statement after where
  masses := by simp [places, graph, placedMasses]
  nextKey := by simp [places, graph]
  joints := by
    intro part _
    simp [places, placedMasses, lastOfKind?, joints part]
  rules := rules
  templates := templates
  switches := switches

/-- A part that is placed gets a new mass and, if it is a joint, takes over from the one before. -/
theorem addPart_carriedOut (blueprint : Blueprint) (part : Part) (first : Coordinates)
    (more : List Coordinates) :
    blueprint.CarriedOut (.place part first more) (blueprint.addPart part first) where
  masses := by cases part <;> rfl
  nextKey := by cases part <;> rfl
  joints := by
    intro joint noInput
    have last : lastOfKind? (placedMasses blueprint.graph.nextKey [(part, first)]) joint.kind =
        if part.kind = joint.kind then some (placedMass blueprint.graph.nextKey (part, first))
        else none := by
      by_cases same : part.kind = joint.kind
      · simp [lastOfKind?, placedMasses, placedMass, same]
      · simp [lastOfKind?, placedMasses, placedMass, same]
    rw [Statement.placement?, Option.toList_some, last]
    cases part <;> cases joint <;> first | rfl | exact absurd rfl noInput
  rules := by cases part <;> exact (List.append_nil _).symm
  templates := by
    intro product
    cases part <;> rfl
  switches := by
    intro switch
    cases part <;> exact (Bool.or_false _).symm

/-- What a statement does when it is carried out. -/
theorem apply_carriedOut {blueprint : Blueprint} {statement : Statement}
    {applied : Logged Blueprint} (done : blueprint.apply statement = .ok applied) :
    blueprint.CarriedOut statement applied.value := by
  have sameRules : ∀ known : List Rule, known = known ++ [] :=
    fun known => (List.append_nil known).symm
  have sameSwitch : ∀ set : Bool, set = (set || false) := fun set => (Bool.or_false set).symm
  cases statement with
  | place part first more =>
    cases done
    exact blueprint.addPart_carriedOut part first more
  | window bounds =>
    cases done
    exact .unplaced rfl rfl (fun _ => rfl) (sameRules _) (fun _ => rfl) (fun _ => sameSwitch _)
  | create product letter bounds =>
    cases done
    cases product with
    | mass =>
      refine .unplaced rfl rfl (fun _ => rfl) (sameRules _) (fun made => ?_) (fun _ => sameSwitch _)
      cases made <;> rfl
    | spring =>
      refine .unplaced rfl rfl (fun _ => rfl) (sameRules _) (fun made => ?_) (fun _ => sameSwitch _)
      cases made <;> rfl
  | options words =>
    cases done
    refine .unplaced rfl rfl (fun _ => rfl) (sameRules _) (fun _ => rfl) (fun switch => ?_)
    exact blueprint.switches.has_insertAll _ switch
  | rules rules =>
    cases done
    exact .unplaced rfl rfl (fun _ => rfl) rfl (fun _ => rfl) (fun _ => sameSwitch _)
  | random product count =>
    obtain ⟨number, -, done⟩ := bind_eq_ok.mp done
    cases done
    cases product <;>
      exact .unplaced rfl rfl (fun _ => rfl) (sameRules _) (fun _ => rfl) (fun _ => sameSwitch _)

/-- A blueprint without segments holds what statements tell of parts, letters, rules and
switches. -/
structure Told (blueprint : Blueprint) (statements : List Statement) : Prop where
  /-- Every place has a mass of its own, in the order of the statements. -/
  masses : blueprint.graph.masses = placedMasses 0 (statements.filterMap Statement.placement?)
  nextKey : blueprint.graph.nextKey = (statements.filterMap Statement.placement?).length
  /-- Of several joints of a kind the last one counts. -/
  joints : ∀ part, part ≠ .input →
    blueprint.joint? part = lastOfKind? blueprint.graph.masses part.kind
  rules : blueprint.rules = statements.flatMap Statement.addedRules
  templates : ∀ product, blueprint.templates product =
    Templates.putAll [] (statements.filterMap (Statement.template? product))
  switches : ∀ switch,
    blueprint.switches.has switch = (statements.flatMap Statement.setSwitches).contains switch

theorem Told.empty : Told {} [] where
  masses := rfl
  nextKey := rfl
  joints := by
    intro part _
    cases part <;> rfl
  rules := rfl
  templates := by
    intro product
    cases product <;> rfl
  switches := by
    intro switch
    cases switch <;> rfl

/-- A statement that is carried out is one more that is told. -/
theorem Told.carriedOut {before after : Blueprint} {statements : List Statement}
    {statement : Statement} (told : before.Told statements)
    (done : before.CarriedOut statement after) : after.Told (statements ++ [statement]) where
  masses := by
    rw [done.masses, told.masses, told.nextKey, filterMap_concat, placedMasses_append, Nat.zero_add]
  nextKey := by rw [done.nextKey, told.nextKey, filterMap_concat, List.length_append]
  joints := by
    intro part noInput
    rw [done.joints part noInput, told.joints part noInput, done.masses, lastOfKind?_append]
  rules := by rw [done.rules, told.rules, List.flatMap_append, List.flatMap_singleton]
  templates := by
    intro product
    rw [done.templates, told.templates, filterMap_concat, Templates.putAll_append]
  switches := by
    intro switch
    rw [done.switches, told.switches, List.flatMap_append, List.flatMap_singleton,
      List.contains_append]

end Blueprint

namespace Reading

/-- The statements of a description, in order. -/
def statements (text : List Char) : List Statement :=
  (numberedLines text).filterMap fun line => Statement.read line.1

/-- The problem of a numbered line: it carries data and spells no statement. -/
def lineProblem? (line : List Char × Nat) : Option Problem :=
  if Text.carriesData line.1 && (Statement.read line.1).isNone then some ⟨line.2, .unknownLine⟩
  else none

/-- A line adds its problem, if it has one, and its statement is carried out, if it spells one. -/
theorem readLine_eq_ok {reading next : Reading} {line : List Char × Nat}
    (done : reading.readLine line = .ok next) :
    next.problems = reading.problems ++ (lineProblem? line).toList ∧
      match Statement.read line.1 with
      | none => next.blueprint = reading.blueprint
      | some statement => reading.blueprint.CarriedOut statement next.blueprint := by
  obtain ⟨text, number⟩ := line
  unfold readLine at done
  dsimp only at done ⊢
  split at done
  next data =>
    split at done
    next unread =>
      cases done
      simp [lineProblem?, data, unread]
    next statement read =>
      obtain ⟨applied, carried, done⟩ := bind_eq_ok.mp done
      cases done
      simp only [lineProblem?, data, read, Option.isNone_some, Bool.and_false, Bool.false_eq_true,
        if_false, Option.toList_none, List.append_nil, true_and]
      exact Blueprint.apply_carriedOut carried
  next noData =>
    have unread : Statement.read text = none := by
      cases read : Statement.read text with
      | none => rfl
      | some statement => exact absurd (Statement.carriesData_of_read read) noData
    cases done
    simp [lineProblem?, noData, unread]

/-- When all lines have been read the blueprint holds what the statements tell, and the problems are
those of the lines. -/
theorem ofText_told {text : List Char} {reading : Reading}
    (done : ofText text = (reading, none)) :
    reading.blueprint.Told (statements text) ∧
      reading.problems = (numberedLines text).filterMap lineProblem? := by
  apply stepwise_prefixes (fun lines (reading : Reading) =>
    reading.blueprint.Told (lines.filterMap fun line => Statement.read line.1) ∧
      reading.problems = lines.filterMap lineProblem?) ⟨Blueprint.Told.empty, rfl⟩ _ done
  rintro lines before line after ⟨told, problems⟩ read
  obtain ⟨newProblems, effect⟩ := readLine_eq_ok read
  rw [filterMap_concat, filterMap_concat, newProblems, problems]
  refine ⟨?_, rfl⟩
  cases spelt : Statement.read line.1 with
  | none =>
    rw [spelt] at effect
    rw [effect, Option.toList_none, List.append_nil]
    exact told
  | some statement =>
    rw [spelt] at effect
    exact told.carriedOut effect

end Reading

end SpringArm
