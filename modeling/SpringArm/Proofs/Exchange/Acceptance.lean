import Mathlib.Tactic.IntervalCases
import SpringArm.Proofs.Exchange.Import

/-!
# Which tables are accepted

Two tables are imported if each of their rows can be read by itself, once the number of mass rows is
known. Then the graph has one mass and one spring for every row and is closed. Otherwise the first
row that cannot be read, masses before connections, is named with what is wrong with it.
-/

namespace SpringArm

/-- A code stands for the kind that has it; the code of elbows and inputs stands for an input. -/
theorem MassKind.ofCode?_eq_some_iff {code : List Char} {kind : MassKind} :
    MassKind.ofCode? code = some kind ↔ code = [kind.code] ∧ kind ≠ .elbow := by
  constructor
  · intro found
    unfold ofCode? at found
    split at found
    next isInput =>
      cases found
      exact ⟨isInput, by decide⟩
    next noInput =>
      have same : [kind.code] = code := by simpa using List.find?_some found
      refine ⟨same.symm, ?_⟩
      rintro rfl
      exact noInput same.symm
  · rintro ⟨rfl, noElbow⟩
    rw [ofCode?_code]
    cases kind <;> first | rfl | exact absurd rfl noElbow

theorem MassKind.ofCode?_eq_none_iff {code : List Char} :
    MassKind.ofCode? code = none ↔ ∀ kind : MassKind, code ≠ [kind.code] := by
  constructor
  · rintro unknown kind rfl
    rw [ofCode?_code] at unknown
    cases unknown
  · intro unknown
    rw [Option.eq_none_iff_forall_ne_some]
    intro kind found
    exact unknown kind (ofCode?_eq_some_iff.mp found).1

/-- The codes of connections are the numbers from one to seven. -/
theorem Connection.ofCode?_eq_none_iff {code : Int} :
    Connection.ofCode? code = none ↔ ¬(1 ≤ code ∧ code ≤ 7) := by
  constructor
  · rintro unknown ⟨low, high⟩
    interval_cases code <;> exact absurd unknown (by decide)
  · intro outside
    rw [ofCode?, List.find?_eq_none]
    intro connection _ same
    apply outside
    rw [← of_decide_eq_true same]
    cases connection <;> decide

namespace Exchange

/-- The first three cells of a row are this code and spell these two numbers. -/
def SpellsMass (row : Row) (code : List Char) (x y : Float) : Prop :=
  ∃ first second rest, row = code :: first :: second :: rest ∧
    Decimal.readFloat? first = some x ∧ Decimal.readFloat? second = some y

/-- The cells of a row, which are three, spell these integers. -/
def SpellsIntegers (row : Row) (first second third : Int) : Prop :=
  ∃ firstCell secondCell thirdCell, row = [firstCell, secondCell, thirdCell] ∧
    Decimal.readInteger? firstCell = some first ∧ Decimal.readInteger? secondCell = some second ∧
    Decimal.readInteger? thirdCell = some third

/-- A mass row can be read: a code that some kind has is followed by two numbers. -/
def MassRow (row : Row) : Prop :=
  ∃ code x y, SpellsMass row code x y ∧ ∃ kind : MassKind, code = [kind.code]

/-- A connection row can be read: two positions of a list of so many masses are followed by a number
from one to seven. -/
def ConnectionRow (count : Nat) (row : Row) : Prop :=
  ∃ higher lower code, SpellsIntegers row higher lower code ∧ (1 ≤ code ∧ code ≤ 7) ∧
    (0 ≤ higher ∧ higher < count) ∧ (0 ≤ lower ∧ lower < count)

/-- All rows of two tables can be read. -/
structure WellFormed (massRows connectionRows : List Row) : Prop where
  masses : ∀ row ∈ massRows, MassRow row
  connections : ∀ row ∈ connectionRows, ConnectionRow massRows.length row

/-- A row tells of a mass. -/
def TellsMass (row : Row) (mass : Mass) : Prop :=
  SpellsMass row [mass.kind.code] mass.x mass.y ∧ mass.kind ≠ .elbow

/-- A row tells of a spring between masses of a list, from the first position to the second. -/
def TellsSpring (masses : List Mass) (row : Row) (spring : Spring) : Prop :=
  ∃ (higher lower : Nat) (code : Int), SpellsIntegers row higher lower code ∧
    (1 ≤ code ∧ code ≤ 7) ∧ masses[higher]? = some spring.source ∧
    masses[lower]? = some spring.destination ∧
    spring.connection = Connection.between spring.source.kind spring.destination.kind

/-- Rows tell of a graph: one mass and one spring for each of them, in their order, and nothing but
these. -/
structure Tells (massRows connectionRows : List Row) (graph : Graph) : Prop where
  masses : List.Forall₂ TellsMass massRows graph.masses
  springs : List.Forall₂ (TellsSpring graph.masses) connectionRows graph.springs
  closed : graph.Closed
  springs_nodup : (graph.springs.map Spring.key).Nodup

/-- What can be wrong with the mass row of a number. -/
inductive MassRowFault (number : Nat) : Row → ImportFault → Prop where
  | short {row} (few : row.length < 3) : MassRowFault number row (.shortMassRow number row)
  | coordinates {code x y rest}
      (unread : Decimal.readFloat? x = none ∨ Decimal.readFloat? y = none) :
      MassRowFault number (code :: x :: y :: rest) (.badCoordinates number (code :: x :: y :: rest))
  | code {row code x y} (spells : SpellsMass row code x y)
      (unknown : ∀ kind : MassKind, code ≠ [kind.code]) :
      MassRowFault number row (.unknownMassCode code)

/-- What can be wrong with the connection row of a number, for so many masses. -/
inductive ConnectionRowFault (count number : Nat) : Row → ImportFault → Prop where
  | size {row} (cells : row.length ≠ 3) :
      ConnectionRowFault count number row (.connectionRowSize number row)
  | number {row} (cells : row.length = 3)
      (unread : ∃ cell ∈ row, Decimal.readInteger? cell = none) :
      ConnectionRowFault count number row (.notNumeric number row)
  | code {row higher lower code} (spells : SpellsIntegers row higher lower code)
      (unknown : ¬(1 ≤ code ∧ code ≤ 7)) :
      ConnectionRowFault count number row (.unknownConnectionCode code)
  | position {row higher lower code} (spells : SpellsIntegers row higher lower code)
      (known : 1 ≤ code ∧ code ≤ 7)
      (missing : ¬((0 ≤ higher ∧ higher < count) ∧ (0 ≤ lower ∧ lower < count))) :
      ConnectionRowFault count number row (.missingMass number row)

/-- What is wrong with the first row of two tables that cannot be read, masses before
connections. -/
inductive FirstFault (massRows connectionRows : List Row) : ImportFault → Prop where
  | mass {front row back fault} (split : massRows = front ++ row :: back)
      (before : ∀ other ∈ front, MassRow other) (wrong : MassRowFault front.length row fault) :
      FirstFault massRows connectionRows fault
  | connection {front row back fault} (masses : ∀ row ∈ massRows, MassRow row)
      (split : connectionRows = front ++ row :: back)
      (before : ∀ other ∈ front, ConnectionRow massRows.length other)
      (wrong : ConnectionRowFault massRows.length front.length row fault) :
      FirstFault massRows connectionRows fault

section Rows

variable {row : Row} {fault : ImportFault} {count number : Nat}

theorem SpellsMass.unique {code other : List Char} {x y otherX otherY : Float}
    (spells : SpellsMass row code x y) (spellsOther : SpellsMass row other otherX otherY) :
    code = other := by
  obtain ⟨first, second, rest, rfl, -, -⟩ := spells
  obtain ⟨_, _, _, same, -, -⟩ := spellsOther
  exact (List.cons.inj same).1

theorem SpellsIntegers.unique {first second third otherFirst otherSecond otherThird : Int}
    (spells : SpellsIntegers row first second third)
    (spellsOther : SpellsIntegers row otherFirst otherSecond otherThird) :
    first = otherFirst ∧ second = otherSecond ∧ third = otherThird := by
  obtain ⟨_, _, _, rfl, readFirst, readSecond, readThird⟩ := spells
  obtain ⟨_, _, _, same, otherReadFirst, otherReadSecond, otherReadThird⟩ := spellsOther
  cases same
  rw [readFirst] at otherReadFirst
  rw [readSecond] at otherReadSecond
  rw [readThird] at otherReadThird
  exact ⟨Option.some.inj otherReadFirst, Option.some.inj otherReadSecond,
    Option.some.inj otherReadThird⟩

theorem TellsMass.massRow {mass : Mass} (tells : TellsMass row mass) : MassRow row :=
  ⟨_, _, _, tells.1, _, rfl⟩

theorem TellsSpring.connectionRow {masses : List Mass} {spring : Spring}
    (tells : TellsSpring masses row spring) : ConnectionRow masses.length row := by
  obtain ⟨higher, lower, code, spells, known, source, destination, -⟩ := tells
  have higherInside := (List.getElem?_eq_some_iff.mp source).1
  have lowerInside := (List.getElem?_eq_some_iff.mp destination).1
  exact ⟨higher, lower, code, spells, known, by omega, by omega⟩

/-- A mass row with which something is wrong cannot be read. -/
theorem MassRowFault.not_massRow (wrong : MassRowFault number row fault) : ¬MassRow row := by
  rintro ⟨code, x, y, spells, kind, rfl⟩
  cases wrong with
  | short few =>
    obtain ⟨_, _, _, rfl, -, -⟩ := spells
    simp only [List.length_cons] at few
    omega
  | coordinates unread =>
    obtain ⟨_, _, _, same, readX, readY⟩ := spells
    cases same
    simp [readX, readY] at unread
  | code otherSpells unknown => exact unknown kind (otherSpells.unique spells)

/-- A connection row with which something is wrong cannot be read. -/
theorem ConnectionRowFault.not_connectionRow (wrong : ConnectionRowFault count number row fault) :
    ¬ConnectionRow count row := by
  rintro ⟨higher, lower, code, spells, known, higherInside, lowerInside⟩
  cases wrong with
  | size cells =>
    obtain ⟨_, _, _, rfl, -⟩ := spells
    exact cells rfl
  | number cells unread =>
    obtain ⟨cell, member, unreadCell⟩ := unread
    obtain ⟨_, _, _, rfl, readFirst, readSecond, readThird⟩ := spells
    simp only [List.mem_cons, List.not_mem_nil, or_false] at member
    rcases member with rfl | rfl | rfl <;> simp_all
  | code otherSpells unknown =>
    obtain ⟨rfl, rfl, rfl⟩ := otherSpells.unique spells
    exact unknown known
  | position otherSpells _ missing =>
    obtain ⟨rfl, rfl, rfl⟩ := otherSpells.unique spells
    exact missing ⟨higherInside, lowerInside⟩

/-- Tables with a first fault are not well formed. -/
theorem FirstFault.not_wellFormed {massRows connectionRows : List Row}
    (first : FirstFault massRows connectionRows fault) : ¬WellFormed massRows connectionRows := by
  rintro ⟨masses, connections⟩
  cases first with
  | mass split _ wrong =>
    exact wrong.not_massRow (masses _ (split ▸ List.mem_append_right _ List.mem_cons_self))
  | connection _ split _ wrong =>
    exact wrong.not_connectionRow
      (connections _ (split ▸ List.mem_append_right _ List.mem_cons_self))

end Rows

section Steps

/-- A mass row adds the mass that it tells of, or something is wrong with it. -/
theorem importMass_cases (graph : Graph) (row : Row) (number : Nat) :
    (∃ x y kind, TellsMass row ⟨graph.nextKey, x, y, kind⟩ ∧
      importMass graph (row, number) = .ok (graph.addMass x y kind).2) ∨
    ∃ fault, MassRowFault number row fault ∧ importMass graph (row, number) = .error fault := by
  match row with
  | [] | [_] | [_, _] => exact .inr ⟨_, .short (by simp), rfl⟩
  | code :: first :: second :: rest =>
    cases readFirst : Decimal.readFloat? first with
    | none => exact .inr ⟨_, .coordinates (.inl readFirst), by simp only [importMass, readFirst]⟩
    | some x =>
      cases readSecond : Decimal.readFloat? second with
      | none =>
        exact .inr ⟨_, .coordinates (.inr readSecond),
          by simp only [importMass, readFirst, readSecond]⟩
      | some y =>
        have spells : SpellsMass (code :: first :: second :: rest) code x y :=
          ⟨first, second, rest, rfl, readFirst, readSecond⟩
        cases known : MassKind.ofCode? code with
        | none =>
          exact .inr ⟨_, .code spells (MassKind.ofCode?_eq_none_iff.mp known),
            by simp only [importMass, readFirst, readSecond, known]⟩
        | some kind =>
          obtain ⟨rfl, noElbow⟩ := MassKind.ofCode?_eq_some_iff.mp known
          exact .inl ⟨x, y, kind, ⟨spells, noElbow⟩,
            by simp only [importMass, readFirst, readSecond, known]⟩

/-- A position of a cell leads to a mass if it is the number of one. -/
theorem massAt?_cases (graph : Graph) (position : Int) :
    (∃ (index : Nat) (mass : Mass), position = index ∧ graph.masses[index]? = some mass ∧
      massAt? graph position = some mass) ∨
    (¬(0 ≤ position ∧ position < graph.masses.length) ∧ massAt? graph position = none) := by
  by_cases negative : position < 0
  · exact .inr ⟨by omega, if_pos negative⟩
  · have index : position = (position.toNat : Int) := by omega
    cases found : graph.masses[position.toNat]? with
    | some mass => exact .inl ⟨position.toNat, mass, index, found, (if_neg negative).trans found⟩
    | none =>
      have beyond := List.getElem?_eq_none_iff.mp found
      exact .inr ⟨by omega, (if_neg negative).trans found⟩

/-- The cells of a row of three spell integers, or one of them does not. -/
theorem spellsIntegers_or_unread {row : Row} (cells : row.length = 3) :
    (∃ first second third, SpellsIntegers row first second third) ∨
      ∃ cell ∈ row, Decimal.readInteger? cell = none := by
  obtain ⟨firstCell, secondCell, thirdCell, rfl⟩ := List.length_eq_three.mp cells
  cases first : Decimal.readInteger? firstCell with
  | none => exact .inr ⟨firstCell, by simp, first⟩
  | some _ =>
    cases second : Decimal.readInteger? secondCell with
    | none => exact .inr ⟨secondCell, by simp, second⟩
    | some _ =>
      cases third : Decimal.readInteger? thirdCell with
      | none => exact .inr ⟨thirdCell, by simp, third⟩
      | some _ => exact .inl ⟨_, _, _, _, _, _, rfl, first, second, third⟩

/-- A connection row of which a cell cannot be read is refused. -/
theorem importSpring_unread (graph : Graph) {row : Row} (cells : row.length = 3)
    (unread : ∃ cell ∈ row, Decimal.readInteger? cell = none) (number : Nat) :
    importSpring graph (row, number) = .error (.notNumeric number row) := by
  obtain ⟨first, second, third, rfl⟩ := List.length_eq_three.mp cells
  obtain ⟨cell, member, unreadCell⟩ := unread
  simp only [List.mem_cons, List.not_mem_nil, or_false] at member
  rcases member with rfl | rfl | rfl <;> simp [importSpring, unreadCell]

namespace SpellsIntegers

variable {graph : Graph} {row : Row} {higher lower code : Int}

/-- A connection row whose last integer is no code is refused. -/
theorem importSpring_unknown (spells : SpellsIntegers row higher lower code) (graph : Graph)
    (unknown : Connection.ofCode? code = none) (number : Nat) :
    importSpring graph (row, number) = .error (.unknownConnectionCode code) := by
  obtain ⟨_, _, _, rfl, first, second, third⟩ := spells
  simp only [importSpring, first, second, third, unknown]

/-- A connection row with a position that leads to no mass is refused. -/
theorem importSpring_missing (spells : SpellsIntegers row higher lower code)
    {connection : Connection} (known : Connection.ofCode? code = some connection)
    (missing : massAt? graph higher = none ∨ massAt? graph lower = none) (number : Nat) :
    importSpring graph (row, number) = .error (.missingMass number row) := by
  obtain ⟨_, _, _, rfl, first, second, third⟩ := spells
  rcases missing with higherMissing | lowerMissing
  · simp only [importSpring, first, second, third, known, higherMissing]
  · cases higherEnd : massAt? graph higher <;>
      simp only [importSpring, first, second, third, known, higherEnd, lowerMissing]

/-- A connection row whose positions lead to masses joins them. -/
theorem importSpring_joined (spells : SpellsIntegers row higher lower code)
    {connection : Connection} (known : Connection.ofCode? code = some connection)
    {source destination : Mass} (isSource : massAt? graph higher = some source)
    (isDestination : massAt? graph lower = some destination) (number : Nat) :
    importSpring graph (row, number) = .ok (graph.addSpring source destination).2 := by
  obtain ⟨_, _, _, rfl, first, second, third⟩ := spells
  simp only [importSpring, first, second, third, known, isSource, isDestination]

end SpellsIntegers

/-- A connection row adds the spring that it tells of, or something is wrong with it. -/
theorem importSpring_cases (graph : Graph) (row : Row) (number : Nat) :
    (∃ source destination,
      TellsSpring graph.masses row (Spring.joining graph.nextKey source destination) ∧
      importSpring graph (row, number) = .ok (graph.addSpring source destination).2) ∨
    ∃ fault, ConnectionRowFault graph.masses.length number row fault ∧
      importSpring graph (row, number) = .error fault := by
  by_cases cells : row.length = 3
  · rcases spellsIntegers_or_unread cells with ⟨higher, lower, code, spells⟩ | unread
    · cases coded : Connection.ofCode? code with
      | none =>
        exact .inr ⟨_, .code spells (Connection.ofCode?_eq_none_iff.mp coded),
          spells.importSpring_unknown graph coded number⟩
      | some connection =>
        have known : 1 ≤ code ∧ code ≤ 7 := by
          by_contra unknown
          rw [Connection.ofCode?_eq_none_iff.mpr unknown] at coded
          cases coded
        rcases massAt?_cases graph higher with
          ⟨sourceIndex, source, rfl, isSource, found⟩ | ⟨outside, missing⟩
        · rcases massAt?_cases graph lower with
            ⟨destinationIndex, destination, rfl, isDestination, alsoFound⟩ | ⟨outside, missing⟩
          · exact .inl ⟨source, destination, ⟨_, _, _, spells, known, isSource, isDestination, rfl⟩,
              spells.importSpring_joined coded found alsoFound number⟩
          · exact .inr ⟨_, .position spells known fun inside => outside inside.2,
              spells.importSpring_missing coded (.inr missing) number⟩
        · exact .inr ⟨_, .position spells known fun inside => outside inside.1,
            spells.importSpring_missing coded (.inl missing) number⟩
    · exact .inr ⟨_, .number cells unread, importSpring_unread graph cells unread number⟩
  · refine .inr ⟨_, .size cells, ?_⟩
    match row with
    | [] | [_] | [_, _] | _ :: _ :: _ :: _ :: _ => rfl
    | [_, _, _] => exact absurd rfl cells

end Steps

section Runs

/-- A fold over numbered items either comes to its end, or it stops at the first item whose step
fails. What holds of the items done so far and the state behind them is kept by every step. -/
theorem foldlM_zipIdx_cases {σ α ε : Type} (step : σ → α × Nat → Except ε σ)
    (holds : List α → σ → Prop) (fails : Nat → α → ε → Prop)
    (each : ∀ done state item, holds done state →
      (∃ next, step state (item, done.length) = .ok next ∧ holds (done ++ [item]) next) ∨
      ∃ fault, fails done.length item fault ∧ step state (item, done.length) = .error fault)
    (state : σ) (start : holds [] state) (items : List α) :
    (∃ final, items.zipIdx.foldlM step state = .ok final ∧ holds items final) ∨
    ∃ front item back fault, items = front ++ item :: back ∧ (∃ reached, holds front reached) ∧
      fails front.length item fault ∧ items.zipIdx.foldlM step state = .error fault := by
  -- The items that are left are numbered from the number of those done.
  suffices fromHere : ∀ left done state, holds done state →
      (∃ final, (left.zipIdx done.length).foldlM step state = .ok final ∧
        holds (done ++ left) final) ∨
      ∃ front item back fault, done ++ left = front ++ item :: back ∧
        (∃ reached, holds front reached) ∧ fails front.length item fault ∧
        (left.zipIdx done.length).foldlM step state = .error fault from
    fromHere items [] state start
  intro left
  induction left with
  | nil => exact fun done state held => .inl ⟨state, rfl, by simpa using held⟩
  | cons item rest inductionHypothesis =>
    intro done state held
    rw [List.zipIdx_cons, List.foldlM_cons]
    rcases each done state item held with ⟨next, outcome, kept⟩ | ⟨fault, fails_here, outcome⟩
    · simp only [outcome, bind, Except.bind]
      have later := inductionHypothesis (done ++ [item]) next kept
      simpa only [List.length_append, List.length_singleton, List.append_assoc,
        List.singleton_append] using later
    · rw [outcome]
      exact .inr ⟨done, item, rest, fault, rfl, ⟨state, held⟩, fails_here, rfl⟩

/-- What a graph is after some mass rows, for keys from a number on. -/
structure MassesRead (nextKey : Nat) (done : List Row) (graph : Graph) : Prop where
  masses : List.Forall₂ TellsMass done graph.masses
  springs : graph.springs = []
  keys : graph.masses.map Mass.key = List.range' nextKey done.length
  nextKey_eq : graph.nextKey = nextKey + done.length

/-- What a graph is after some connection rows, with the masses of a base. -/
structure SpringsRead (base : Graph) (done : List Row) (graph : Graph) : Prop where
  masses : graph.masses = base.masses
  springs : List.Forall₂ (TellsSpring base.masses) done graph.springs
  keys : graph.springs.map Spring.key = List.range' base.nextKey done.length
  nextKey_eq : graph.nextKey = base.nextKey + done.length

variable {nextKey : Nat} {base graph : Graph} {done : List Row} {row : Row}

theorem MassesRead.addMass (read : MassesRead nextKey done graph) {x y : Float} {kind : MassKind}
    (tells : TellsMass row ⟨graph.nextKey, x, y, kind⟩) :
    MassesRead nextKey (done ++ [row]) (graph.addMass x y kind).2 where
  masses := List.rel_append read.masses (.cons tells .nil)
  springs := read.springs
  keys := by
    rw [Graph.addMass_masses, List.map_append, read.keys, List.length_append, List.length_singleton,
      List.range'_1_concat, List.map_singleton, read.nextKey_eq]
  nextKey_eq := by
    rw [Graph.addMass_nextKey, read.nextKey_eq, List.length_append, List.length_singleton,
      Nat.add_assoc]

theorem SpringsRead.addSpring (read : SpringsRead base done graph) {source destination : Mass}
    (tells : TellsSpring graph.masses row (Spring.joining graph.nextKey source destination)) :
    SpringsRead base (done ++ [row]) (graph.addSpring source destination).2 where
  masses := read.masses
  springs := List.rel_append read.springs (.cons (read.masses ▸ tells) .nil)
  keys := by
    rw [Graph.addSpring_springs, List.map_append, read.keys, List.length_append,
      List.length_singleton, List.range'_1_concat, List.map_singleton, Spring.joining,
      read.nextKey_eq]
  nextKey_eq := by
    rw [Graph.addSpring_nextKey, read.nextKey_eq, List.length_append, List.length_singleton,
      Nat.add_assoc]

/-- Rows that tell of masses can be read. -/
theorem massRow_of_tells {rows : List Row} {masses : List Mass}
    (tells : List.Forall₂ TellsMass rows masses) : ∀ row ∈ rows, MassRow row :=
  ((List.forall₂_and_left _ _).mp (tells.imp fun _ _ tells => ⟨tells.massRow, tells⟩)).1

/-- Rows that tell of springs can be read. -/
theorem connectionRow_of_tells {rows : List Row} {masses : List Mass} {springs : List Spring}
    (tells : List.Forall₂ (TellsSpring masses) rows springs) :
    ∀ row ∈ rows, ConnectionRow masses.length row :=
  ((List.forall₂_and_left _ _).mp (tells.imp fun _ _ tells => ⟨tells.connectionRow, tells⟩)).1

/-- Rows that tell of a graph can be read. -/
theorem Tells.wellFormed {massRows connectionRows : List Row}
    (tells : Tells massRows connectionRows graph) : WellFormed massRows connectionRows where
  masses := massRow_of_tells tells.masses
  connections := tells.masses.length_eq ▸ connectionRow_of_tells tells.springs

/-- The springs that rows tell of end at the masses that other rows tell of. -/
theorem SpringsRead.tells {massRows connectionRows : List Row}
    (masses : MassesRead nextKey massRows base) (springs : SpringsRead base connectionRows graph) :
    Tells massRows connectionRows graph where
  masses := springs.masses ▸ masses.masses
  springs := springs.masses ▸ springs.springs
  closed := by
    refine ⟨?_, ?_⟩
    · rw [springs.masses, masses.keys]
      exact List.nodup_range'
    · rw [springs.masses]
      -- What holds of every row and its spring is told of the springs alone.
      have ends : List.Forall₂ (fun (spring : Spring) (_ : Row) =>
          (spring.source ∈ base.masses ∧ spring.destination ∈ base.masses) ∧ True)
          graph.springs connectionRows := by
        refine List.Forall₂.flip (springs.springs.imp ?_)
        rintro row spring ⟨_, _, _, _, _, source, destination, -⟩
        exact ⟨⟨List.mem_of_getElem? source, List.mem_of_getElem? destination⟩, trivial⟩
      exact ((List.forall₂_and_left _ _).mp ends).1
  springs_nodup := by
    rw [springs.keys]
    exact List.nodup_range'

/-- Mass rows are read one after the other, up to the first one that cannot be read. -/
theorem importMasses_cases (nextKey : Nat) (rows : List Row) :
    (∃ graph, rows.zipIdx.foldlM importMass (Graph.empty nextKey) = .ok graph ∧
      MassesRead nextKey rows graph) ∨
    ∃ front row back fault, rows = front ++ row :: back ∧ (∀ other ∈ front, MassRow other) ∧
      MassRowFault front.length row fault ∧
      rows.zipIdx.foldlM importMass (Graph.empty nextKey) = .error fault := by
  refine (foldlM_zipIdx_cases importMass (MassesRead nextKey) MassRowFault ?_ (Graph.empty nextKey)
    ⟨.nil, rfl, rfl, rfl⟩ rows).imp_right ?_
  · intro done graph row read
    rcases importMass_cases graph row done.length with ⟨x, y, kind, tells, outcome⟩ | refused
    · exact .inl ⟨_, outcome, read.addMass tells⟩
    · exact .inr refused
  · rintro ⟨front, row, back, fault, split, ⟨reached, read⟩, wrong, stopped⟩
    exact ⟨front, row, back, fault, split, massRow_of_tells read.masses, wrong, stopped⟩

/-- Connection rows are read one after the other, up to the first one that cannot be read. -/
theorem importSprings_cases {base : Graph} (noSprings : base.springs = []) (rows : List Row) :
    (∃ graph, rows.zipIdx.foldlM importSpring base = .ok graph ∧ SpringsRead base rows graph) ∨
    ∃ front row back fault, rows = front ++ row :: back ∧
      (∀ other ∈ front, ConnectionRow base.masses.length other) ∧
      ConnectionRowFault base.masses.length front.length row fault ∧
      rows.zipIdx.foldlM importSpring base = .error fault := by
  have start : SpringsRead base [] base := ⟨rfl, noSprings ▸ .nil, by rw [noSprings]; rfl, rfl⟩
  refine (foldlM_zipIdx_cases importSpring (SpringsRead base)
    (ConnectionRowFault base.masses.length) ?_ base start rows).imp_right ?_
  · intro done graph row read
    rcases importSpring_cases graph row done.length with
      ⟨source, destination, tells, outcome⟩ | refused
    · exact .inl ⟨_, outcome, read.addSpring tells⟩
    · exact .inr (read.masses ▸ refused)
  · rintro ⟨front, row, back, fault, split, ⟨reached, read⟩, wrong, stopped⟩
    exact ⟨front, row, back, fault, split, connectionRow_of_tells read.springs, wrong, stopped⟩

/-- Importing rows gives a graph that they tell of, or names their first fault. -/
theorem importRows_cases (nextKey : Nat) (massRows connectionRows : List Row) :
    (∃ graph, importRows nextKey massRows connectionRows = .ok graph ∧
      Tells massRows connectionRows graph) ∨
    ∃ fault, importRows nextKey massRows connectionRows = .error fault ∧
      FirstFault massRows connectionRows fault := by
  rcases importMasses_cases nextKey massRows with ⟨base, massesDone, masses⟩ |
    ⟨front, row, back, fault, split, before, wrong, stopped⟩
  · have outcome : importRows nextKey massRows connectionRows =
        connectionRows.zipIdx.foldlM importSpring base := by
      rw [importRows, massesDone]
      rfl
    rw [outcome]
    refine (importSprings_cases masses.springs connectionRows).imp ?_ ?_
    · rintro ⟨graph, done, springs⟩
      exact ⟨graph, done, springs.tells masses⟩
    · rintro ⟨front, row, back, fault, split, before, wrong, stopped⟩
      rw [← masses.masses.length_eq] at before wrong
      exact ⟨fault, stopped, .connection (massRow_of_tells masses.masses) split before wrong⟩
  · refine .inr ⟨fault, ?_, .mass split before wrong⟩
    rw [importRows, stopped]
    rfl

end Runs

/-- Two tables are imported if all their rows can be read. The graph has one mass and one spring for
every row, in their order, and every spring ends at masses of it. Otherwise the fault is that of the
first row that cannot be read. -/
theorem importTables_accepts (nextKey : Nat) (masses connections : List Char) :
    ((∃ graph, importTables nextKey (some masses) (some connections) = .ok graph) ↔
      WellFormed (dataRows masses) (dataRows connections)) ∧
    (∀ graph, importTables nextKey (some masses) (some connections) = .ok graph →
      Tells (dataRows masses) (dataRows connections) graph) ∧
    ∀ fault, importTables nextKey (some masses) (some connections) = .error fault →
      FirstFault (dataRows masses) (dataRows connections) fault := by
  simp only [importTables]
  rcases importRows_cases nextKey (dataRows masses) (dataRows connections) with
    ⟨graph, outcome, tells⟩ | ⟨fault, outcome, first⟩
  · rw [outcome]
    refine ⟨iff_of_true ⟨graph, rfl⟩ tells.wellFormed, ?_, ?_⟩
    · rintro _ ⟨⟩
      exact tells
    · intro _ refused
      cases refused
  · rw [outcome]
    refine ⟨iff_of_false ?_ first.not_wellFormed, ?_, ?_⟩
    · rintro ⟨_, accepted⟩
      cases accepted
    · intro _ accepted
      cases accepted
    · rintro _ ⟨⟩
      exact first

/-- Cells may be quoted, underscores may stand between digits, and digits may be of any script. A
position may not be negative. -/
theorem importTables_accepts_sample :
    let masses := "\"i\",0_0.5,1e1\nt,٣, -inf ,9\n".toList
    let connections := "1,0,+0_7\n".toList
    let negative := "0,0,1\n1,-1,7\n".toList
    (∃ graph, importTables 0 (some masses) (some connections) = .ok graph ∧
      Tells (dataRows masses) (dataRows connections) graph) ∧
    FirstFault (dataRows masses) (dataRows negative)
      (.missingMass 1 ["1".toList, "-1".toList, "7".toList]) := by
  intro masses connections negative
  obtain ⟨-, tells, -⟩ := importTables_accepts 0 masses connections
  obtain ⟨-, -, refused⟩ := importTables_accepts 0 masses negative
  exact ⟨⟨_, rfl, tells _ rfl⟩, refused _ rfl⟩

end Exchange

end SpringArm
