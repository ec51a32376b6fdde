import SpringArm.Proofs.Exchange.Export
import SpringArm.Proofs.Graph.Order

/-!
# The two tables agree

The masses table tells of a spring in the row of its higher end, the connection table has a row of
its own for it. In a closed graph both tell of the same pairs of positions, because both follow the
keys of the springs. Keys do not depend on the directions of the springs, so turning springs round
changes nothing but the connections.
-/

namespace SpringArm

theorem Decimal.natDigits_injective : Function.Injective Decimal.natDigits :=
  Function.LeftInverse.injective Decimal.natOfPlain_natDigits

namespace Graph

open Exchange

/-- A graph has the masses of another one and its springs, any of which may be turned round. -/
structure TurnedFrom (original turned : Graph) : Prop where
  masses : turned.masses = original.masses
  ends : turned.springs.map Spring.unorderedEnds = original.springs.map Spring.unorderedEnds

namespace TurnedFrom

variable {original turned : Graph}

theorem indexOf_eq (turnedFrom : TurnedFrom original turned) :
    turned.indexOf = original.indexOf := by
  funext mass
  rw [indexOf, indexOf, turnedFrom.masses]

/-- Turning springs round changes none of their keys. -/
theorem keys_eq (turnedFrom : TurnedFrom original turned) :
    turned.springs.map turned.keyOf = original.springs.map original.keyOf := by
  have keyOfEnds : turned.keyOfEnds = original.keyOfEnds := by
    simp only [Graph.keyOfEnds, turnedFrom.indexOf_eq]
  have keys : ∀ graph : Graph, graph.springs.map graph.keyOf =
      (graph.springs.map Spring.unorderedEnds).map graph.keyOfEnds := by
    intro graph
    rw [List.map_map]
    rfl
  rw [keys, keys, turnedFrom.ends, keyOfEnds]

theorem closed (turnedFrom : TurnedFrom original turned) (closed : original.Closed) :
    turned.Closed where
  masses_nodup := turnedFrom.masses ▸ closed.masses_nodup
  ends_mem := by
    intro spring member
    have kept : spring.unorderedEnds ∈ original.springs.map Spring.unorderedEnds :=
      turnedFrom.ends ▸ List.mem_map_of_mem member
    obtain ⟨old, oldMember, same⟩ := List.mem_map.mp kept
    obtain ⟨source, destination⟩ := closed.ends_mem old oldMember
    rw [turnedFrom.masses]
    rcases Sym2.eq_iff.mp same with ⟨straight, straightBack⟩ | ⟨crossed, crossedBack⟩
    · exact ⟨straight ▸ source, straightBack ▸ destination⟩
    · exact ⟨crossedBack ▸ destination, crossed ▸ source⟩

end TurnedFrom

/-- The lower positions of the keys that have a position as the higher one, ascending. -/
def keysUnder (graph : Graph) (higher : Nat) : List Nat :=
  (List.range higher).filter fun lower => (graph.springs.map graph.keyOf).contains ⟨higher, lower⟩

theorem mem_keysUnder {graph : Graph} {higher lower : Nat} :
    lower ∈ graph.keysUnder higher ↔
      lower < higher ∧ ⟨higher, lower⟩ ∈ graph.springs.map graph.keyOf := by
  rw [keysUnder, List.mem_filter, List.mem_range, List.contains_iff_mem]

theorem keysUnder_pairwise (graph : Graph) (higher : Nat) :
    (graph.keysUnder higher).Pairwise (· < ·) :=
  List.pairwise_lt_range.filter _

/-- The row of the mass at a position: its code and its place, a zero, and the positions under
it. -/
theorem Closed.massRow_eq {graph : Graph} (closed : graph.Closed) {position : Nat} {mass : Mass}
    (found : graph.masses[position]? = some mass) :
    massRow graph mass =
      [[mass.kind.code], Decimal.floatText mass.x, Decimal.floatText mass.y, ['0']] ++
        (graph.keysUnder position).map Decimal.natDigits := by
  rw [massRow, closed.priorConnections?_eq (List.mem_of_getElem? found), closed.indexOf_eq found]
  rfl

/-- A row of the connection table starts with two positions if they are the key of a spring. -/
theorem exists_connectionRow_iff {graph : Graph} {higher lower : Nat} :
    (∃ row ∈ graph.canonical.map connectionRow,
        [Decimal.natDigits higher, Decimal.natDigits lower] <+: row) ↔
      ⟨higher, lower⟩ ∈ graph.springs.map graph.keyOf := by
  rw [← (List.mergeSort_perm _ SortKey.precedes).mem_iff, ← canonical_keys]
  simp only [List.mem_map, exists_exists_and_eq_and]
  apply exists_congr
  rintro ⟨⟨keyHigher, keyLower⟩, spring⟩
  apply and_congr_right
  intro _
  simp [connectionRow, Decimal.natDigits_injective.eq_iff, eq_comm]

namespace TurnedFrom

variable {original turned : Graph}

/-- Turning springs round does not change the masses table. -/
theorem massesTable_eq (turnedFrom : TurnedFrom original turned) (closed : original.Closed) :
    massesTable turned = massesTable original := by
  have rows : massRows turned = massRows original := by
    rw [massRows, massRows, turnedFrom.masses]
    apply List.map_congr_left
    intro mass member
    have found := closed.getElem?_indexOf member
    rw [closed.massRow_eq found, (turnedFrom.closed closed).massRow_eq (turnedFrom.masses ▸ found),
      keysUnder, keysUnder, turnedFrom.keys_eq]
  rw [massesTable, massesTable, rows]

/-- Turning springs round does not change the positions in the connection table. -/
theorem connectionRows_eq (turnedFrom : TurnedFrom original turned) :
    (turned.canonical.map connectionRow).map (·.take 2) =
      (original.canonical.map connectionRow).map (·.take 2) := by
  have columns : ∀ graph : Graph, (graph.canonical.map connectionRow).map (·.take 2) =
      (graph.canonical.map (·.1)).map fun key =>
        [Decimal.natDigits key.higher, Decimal.natDigits key.lower] := by
    intro graph
    rw [List.map_map, List.map_map]
    rfl
  rw [columns, columns, canonical_keys, canonical_keys, turnedFrom.keys_eq]

end TurnedFrom

end Graph

namespace Exchange

/-- The tables of a closed graph tell of the same springs. Behind the zero in the row of the mass at
a position the lower positions go up strictly, and they are those that follow this position in a row
of the connection table. Turning any springs round keeps the masses table and, in the connection
table, the positions of every row. -/
theorem tables_agree {graph : Graph} (closed : graph.Closed) :
    ∃ connections, connectionsTable graph = .ok connections ∧
      (dataRows (massesTable graph)).length = graph.masses.length ∧
      (∀ position mass, graph.masses[position]? = some mass → ∃ prior : List Nat,
        (dataRows (massesTable graph))[position]? = some ([[mass.kind.code],
          Decimal.floatText mass.x, Decimal.floatText mass.y, ['0']] ++
            prior.map Decimal.natDigits) ∧
        prior.Pairwise (· < ·) ∧
        ∀ lower, lower ∈ prior ↔ lower < position ∧ ∃ row ∈ dataRows connections,
          [Decimal.natDigits position, Decimal.natDigits lower] <+: row) ∧
      ∀ turned, graph.TurnedFrom turned → massesTable turned = massesTable graph ∧
        ∃ turnedConnections, connectionsTable turned = .ok turnedConnections ∧
          (dataRows turnedConnections).map (·.take 2) = (dataRows connections).map (·.take 2) := by
  refine ⟨_, closed.connectionsTable_eq, ?_, ?_, ?_⟩
  · rw [dataRows_massesTable, massRows, List.length_map]
  · intro position mass found
    refine ⟨graph.keysUnder position, ?_, graph.keysUnder_pairwise position, ?_⟩
    · rw [dataRows_massesTable, massRows, List.getElem?_map, found, Option.map_some,
        closed.massRow_eq found]
    · intro lower
      rw [dataRows_connections, Graph.exists_connectionRow_iff, Graph.mem_keysUnder]
  · intro turned turnedFrom
    refine ⟨turnedFrom.massesTable_eq closed, _, (turnedFrom.closed closed).connectionsTable_eq, ?_⟩
    rw [dataRows_connections, dataRows_connections, turnedFrom.connectionRows_eq]

/-- An input, a mass of the network and a hand with these springs. -/
def wovenGraph (springs : Mass → Mass → Mass → List Spring) : Graph :=
  let input : Mass := ⟨0, -0.0, 0.5, .input⟩
  let free : Mass := ⟨1, 1.0 / 0.0, 2e-7, .network⟩
  let hand : Mass := ⟨2, -1.5, 1e300, .hand⟩
  { masses := [input, free, hand], springs := springs input free hand, nextKey := 7 }

/-- Two springs join the hand and the input, one is a loop, and one leads down from the hand. -/
def woven : Graph :=
  wovenGraph fun input free hand => [Spring.joining 3 input hand, Spring.joining 4 hand input,
    Spring.joining 5 free free, Spring.joining 6 hand free]

/-- The same with the first and the last of the springs turned round. -/
def wovenTurned : Graph :=
  wovenGraph fun input free hand => [Spring.joining 3 hand input, Spring.joining 4 hand input,
    Spring.joining 5 free free, Spring.joining 6 free hand]

/-- The row of the hand tells of the input and of the mass of the network, whichever way the springs
lead. -/
theorem tables_agree_woven :
    woven.Closed ∧ woven.TurnedFrom wovenTurned ∧ massesTable wovenTurned = massesTable woven ∧
      ∃ prior : List Nat, (dataRows (massesTable wovenTurned))[2]? = some ([['e'],
        Decimal.floatText (-1.5), Decimal.floatText 1e300, ['0']] ++ prior.map Decimal.natDigits) ∧
        prior.Pairwise (· < ·) ∧ 0 ∈ prior ∧ 1 ∈ prior := by
  have closed : woven.Closed := by
    refine ⟨by decide, ?_⟩
    simp [woven, wovenGraph, Spring.joining]
  have turned : woven.TurnedFrom wovenTurned := by
    refine ⟨rfl, ?_⟩
    simp [woven, wovenTurned, wovenGraph, Spring.unorderedEnds, Sym2.eq_swap]
  obtain ⟨connections, exported, -, rows, directions⟩ := tables_agree closed
  obtain ⟨prior, row, ascending, member⟩ := rows 2 ⟨2, -1.5, 1e300, .hand⟩ rfl
  rw [closed.connectionsTable_eq] at exported
  cases exported
  simp only [dataRows_connections, Graph.exists_connectionRow_iff] at member
  refine ⟨closed, turned, (directions _ turned).1, prior, ?_, ascending, ?_, ?_⟩
  · rw [(directions _ turned).1]
    exact row
  · exact (member 0).mpr (by decide)
  · exact (member 1).mpr (by decide)

end Exchange

end SpringArm
