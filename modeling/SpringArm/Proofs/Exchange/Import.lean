import SpringArm.Exchange.Import
import SpringArm.Proofs.Exchange.Export

/-!
# Importing what was exported

The tables of a closed graph are imported as its rebuilt graph: a copy of every mass, in the same
order, and a spring for every row of the connection table, from the higher position to the lower
one. Elbows are copied as inputs, because their rows have the same code.
-/

namespace SpringArm

/-- What a kind is read back as. Elbows and inputs share a code, which stands for an input. -/
def MassKind.readBack : MassKind → MassKind
  | .elbow => .input
  | kind => kind

theorem MassKind.ofCode?_code (kind : MassKind) :
    MassKind.ofCode? [kind.code] = some kind.readBack := by
  cases kind <;> decide

theorem MassKind.readBack_code (kind : MassKind) : kind.readBack.code = kind.code := by
  cases kind <;> rfl

theorem Connection.ofCode?_code (connection : Connection) :
    Connection.ofCode? (connection.code : Int) = some connection := by
  cases connection <;> decide

namespace Graph

/-- The places of all masses are read back from their texts. -/
def PlacesReadBack (graph : Graph) : Prop :=
  ∀ mass ∈ graph.masses, Decimal.readFloat? (Decimal.floatText mass.x) = some mass.x ∧
    Decimal.readFloat? (Decimal.floatText mass.y) = some mass.y

instance (graph : Graph) : Decidable graph.PlacesReadBack :=
  inferInstanceAs (Decidable (∀ mass ∈ graph.masses,
    Decimal.readFloat? (Decimal.floatText mass.x) = some mass.x ∧
      Decimal.readFloat? (Decimal.floatText mass.y) = some mass.y))

/-- All positions have few enough digits to be read back. Only a list of masses that is longer than
any memory has room for fails this. -/
def PositionsReadBack (graph : Graph) : Prop :=
  graph.masses.length ≤ 10 ^ Decimal.integerDigitLimit

/-- The end of a spring at the higher position. -/
def higherEnd (graph : Graph) (spring : Spring) : Mass :=
  if graph.indexOf spring.destination < graph.indexOf spring.source then spring.source
  else spring.destination

/-- The end of a spring at the lower position. -/
def lowerEnd (graph : Graph) (spring : Spring) : Mass :=
  if graph.indexOf spring.source < graph.indexOf spring.destination then spring.source
  else spring.destination

/-- The mass that the row of a mass is read back as, if keys start at a number. -/
def copyOf (graph : Graph) (nextKey : Nat) (mass : Mass) : Mass :=
  ⟨nextKey + graph.indexOf mass, mass.x, mass.y, mass.kind.readBack⟩

/-- The springs that the rows of springs are read back as, if keys start at a number and those of
springs at another one. -/
def springCopies (graph : Graph) (nextKey : Nat) (keyed : List (SortKey × Spring))
    (springKey : Nat) : List Spring :=
  (keyed.zipIdx springKey).map fun (row, key) =>
    Spring.joining key (graph.copyOf nextKey (graph.higherEnd row.2))
      (graph.copyOf nextKey (graph.lowerEnd row.2))

/-- The graph that the two tables of a graph are read back as, if keys start at a number. -/
def rebuilt (graph : Graph) (nextKey : Nat) : Graph where
  masses := graph.masses.map (graph.copyOf nextKey)
  springs := graph.springCopies nextKey graph.canonical (nextKey + graph.masses.length)
  nextKey := nextKey + graph.masses.length + graph.springs.length

namespace Closed

variable {graph : Graph}

theorem indexOf_higherEnd (closed : graph.Closed) {spring : Spring}
    (member : spring ∈ graph.springs) :
    graph.higherEnd spring ∈ graph.masses ∧
      graph.indexOf (graph.higherEnd spring) = (graph.keyOf spring).higher := by
  obtain ⟨source, destination⟩ := closed.ends_mem spring member
  unfold higherEnd
  split
  next higher => exact ⟨source, by simp only [keyOf, SortKey.ofPositions]; omega⟩
  next lower => exact ⟨destination, by simp only [keyOf, SortKey.ofPositions]; omega⟩

theorem indexOf_lowerEnd (closed : graph.Closed) {spring : Spring}
    (member : spring ∈ graph.springs) :
    graph.lowerEnd spring ∈ graph.masses ∧
      graph.indexOf (graph.lowerEnd spring) = (graph.keyOf spring).lower := by
  obtain ⟨source, destination⟩ := closed.ends_mem spring member
  unfold lowerEnd
  split
  next lower => exact ⟨source, by simp only [keyOf, SortKey.ofPositions]; omega⟩
  next higher => exact ⟨destination, by simp only [keyOf, SortKey.ofPositions]; omega⟩

/-- The copy of a mass stands at the position of the mass. -/
theorem getElem?_copyOf (closed : graph.Closed) (nextKey : Nat) {mass : Mass}
    (member : mass ∈ graph.masses) :
    (graph.masses.map (graph.copyOf nextKey))[graph.indexOf mass]? =
      some (graph.copyOf nextKey mass) := by
  rw [List.getElem?_map, closed.getElem?_indexOf member, Option.map_some]

/-- Copies are numbered in the order of the masses. -/
theorem map_copyOf (closed : graph.Closed) (nextKey : Nat) :
    graph.masses.map (graph.copyOf nextKey) = (graph.masses.zipIdx nextKey).map fun (mass, key) =>
      (⟨key, mass.x, mass.y, mass.kind.readBack⟩ : Mass) := by
  ext position mass
  rw [List.getElem?_map, List.getElem?_map, List.getElem?_zipIdx]
  cases found : graph.masses[position]? with
  | none => rfl
  | some original => simp [copyOf, closed.indexOf_eq found]

end Closed

end Graph

namespace Exchange

open SpringArm.Graph (copyOf springCopies)

/-- Importing the rows of masses adds a copy of each. -/
theorem foldlM_importMass (graph : Graph) {masses : List Mass}
    (places : ∀ mass ∈ masses, Decimal.readFloat? (Decimal.floatText mass.x) = some mass.x ∧
      Decimal.readFloat? (Decimal.floatText mass.y) = some mass.y)
    (start : Graph) (number : Nat) :
    ((masses.map (massRow graph)).zipIdx number).foldlM importMass start = .ok
      { start with
        masses := start.masses ++ (masses.zipIdx start.nextKey).map fun (mass, key) =>
          (⟨key, mass.x, mass.y, mass.kind.readBack⟩ : Mass)
        nextKey := start.nextKey + masses.length } := by
  induction masses generalizing start number with
  | nil => simp [pure, Except.pure]
  | cons mass rest inductionHypothesis =>
    obtain ⟨⟨x, y⟩, others⟩ := List.forall_mem_cons.mp places
    have imported : importMass start (massRow graph mass, number) =
        .ok (start.addMass mass.x mass.y mass.kind.readBack).2 := by
      simp [importMass, massRow, x, y, MassKind.ofCode?_code]
    rw [List.map_cons, List.zipIdx_cons, List.foldlM_cons, imported]
    simp only [bind, Except.bind]
    rw [inductionHypothesis others]
    simp [List.zipIdx_cons]
    omega

/-- Importing the row of a spring joins the copies of its ends, the one at the higher position
first. -/
theorem importSpring_connectionRow {graph : Graph} (closed : graph.Closed)
    (positions : graph.PositionsReadBack) {nextKey number : Nat} {keyed : SortKey × Spring}
    (member : keyed ∈ graph.canonical) {start : Graph}
    (masses : start.masses = graph.masses.map (graph.copyOf nextKey)) :
    importSpring start (connectionRow keyed, number) =
      .ok (start.addSpring (graph.copyOf nextKey (graph.higherEnd keyed.2))
        (graph.copyOf nextKey (graph.lowerEnd keyed.2))).2 := by
  obtain ⟨springMember, key⟩ := Graph.mem_canonical.mp member
  obtain ⟨higherMember, higher⟩ := closed.indexOf_higherEnd springMember
  obtain ⟨lowerMember, lower⟩ := closed.indexOf_lowerEnd springMember
  have found : ∀ {mass : Mass}, mass ∈ graph.masses →
      massAt? start (graph.indexOf mass : Int) = some (graph.copyOf nextKey mass) := by
    intro mass massMember
    simp only [massAt?, masses, Int.toNat_natCast, closed.getElem?_copyOf nextKey massMember]
    rw [if_neg (by omega)]
  have read : ∀ {mass : Mass}, mass ∈ graph.masses →
      Decimal.readInteger? (Decimal.natDigits (graph.indexOf mass)) =
        some (graph.indexOf mass : Int) :=
    fun massMember => Decimal.readInteger?_natDigits
      ((Nat.length_toDigits_le_iff (by decide) (by decide)).mpr
        (Nat.lt_of_lt_of_le (closed.indexOf_lt massMember) positions))
  have code : Decimal.readInteger? (Decimal.natDigits keyed.2.connection.code) =
      some (keyed.2.connection.code : Int) := by
    apply Decimal.readInteger?_natDigits
    cases keyed.2.connection <;> decide
  simp only [importSpring, connectionRow, List.map_cons, List.map_nil, key, ← higher, ← lower,
    read higherMember, read lowerMember, code, Connection.ofCode?_code, found higherMember,
    found lowerMember]

/-- Importing the rows of springs adds a copy of each. -/
theorem foldlM_importSpring {graph : Graph} (closed : graph.Closed)
    (positions : graph.PositionsReadBack) {nextKey : Nat} {keyed : List (SortKey × Spring)}
    (members : ∀ row ∈ keyed, row ∈ graph.canonical) {start : Graph}
    (masses : start.masses = graph.masses.map (graph.copyOf nextKey)) (number : Nat) :
    ((keyed.map connectionRow).zipIdx number).foldlM importSpring start = .ok
      { start with
        springs := start.springs ++ graph.springCopies nextKey keyed start.nextKey
        nextKey := start.nextKey + keyed.length } := by
  induction keyed generalizing start number with
  | nil => simp [springCopies, pure, Except.pure]
  | cons row rest inductionHypothesis =>
    obtain ⟨first, others⟩ := List.forall_mem_cons.mp members
    rw [List.map_cons, List.zipIdx_cons, List.foldlM_cons,
      importSpring_connectionRow closed positions first masses]
    have sameMasses : (start.addSpring (graph.copyOf nextKey (graph.higherEnd row.2))
        (graph.copyOf nextKey (graph.lowerEnd row.2))).2.masses =
          graph.masses.map (graph.copyOf nextKey) := masses
    simp only [bind, Except.bind]
    rw [inductionHypothesis others sameMasses]
    simp [springCopies, List.zipIdx_cons]
    omega

/-- The tables of a closed graph are imported as its rebuilt graph. -/
theorem importTables_export {graph : Graph} (closed : graph.Closed)
    (places : graph.PlacesReadBack) (positions : graph.PositionsReadBack) (nextKey : Nat)
    {connections : List Char} (exported : connectionsTable graph = .ok connections) :
    importTables nextKey (some (massesTable graph)) (some connections) =
      .ok (graph.rebuilt nextKey) := by
  rw [closed.connectionsTable_eq] at exported
  cases exported
  simp only [importTables, importRows, dataRows_massesTable, dataRows_connections, massRows]
  rw [foldlM_importMass graph places]
  simp only [bind, Except.bind, Graph.empty, List.nil_append]
  rw [← closed.map_copyOf nextKey,
    foldlM_importSpring closed positions (fun _ member => member) rfl]
  simp only [Graph.rebuilt, List.nil_append, Except.ok.injEq, Graph.mk.injEq, true_and]
  have count := graph.canonical_perm.length_eq
  rw [List.length_map] at count
  rw [count]

end Exchange

end SpringArm
