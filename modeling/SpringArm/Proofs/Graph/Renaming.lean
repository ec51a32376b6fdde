import Mathlib.Data.List.Nodup
import SpringArm.Graph.Search
import SpringArm.Proofs.Graph.Sound

/-!
# Renaming keys

Keys only tell masses and springs apart. A renaming gives everything another key and keeps different
keys different, so a renamed graph answers every question as the graph did, and every change to it
is the renamed change. New keys are given out one after the other on both sides, which a renaming
has to follow from its `start` on. `Graph.shape` is what can be seen of a graph without its
keys. -/

namespace SpringArm

/-- Other keys for all keys. From `start` on they go up one by one. -/
structure Renaming where
  key : Nat → Nat
  injective : Function.Injective key
  start : Nat
  key_succ : ∀ old, start ≤ old → key (old + 1) = key old + 1

namespace Renaming

section Listed

variable {keys : List Nat} {next old : Nat}

/-- The keys of a list, and after them all keys from a number on. -/
def listedKey (keys : List Nat) (next old : Nat) : Nat :=
  keys[old]?.getD (next + (old - keys.length))

theorem listedKey_of_lt (inside : old < keys.length) : listedKey keys next old = keys[old] := by
  rw [listedKey, List.getElem?_eq_getElem inside, Option.getD_some]

theorem listedKey_of_le (behind : keys.length ≤ old) :
    listedKey keys next old = next + (old - keys.length) := by
  rw [listedKey, List.getElem?_eq_none behind, Option.getD_none]

theorem listedKey_injective (nodup : keys.Nodup) (bound : ∀ key ∈ keys, key < next) :
    Function.Injective (listedKey keys next) := by
  have listed : ∀ {old : Nat} (inside : old < keys.length), keys[old] < next :=
    fun inside => bound _ (List.getElem_mem inside)
  intro first second same
  by_cases firstInside : first < keys.length
  · rw [listedKey_of_lt firstInside] at same
    by_cases secondInside : second < keys.length
    · rw [listedKey_of_lt secondInside] at same
      exact nodup.getElem_inj_iff.mp same
    · rw [listedKey_of_le (Nat.le_of_not_lt secondInside)] at same
      have below := listed firstInside
      omega
  · rw [listedKey_of_le (Nat.le_of_not_lt firstInside)] at same
    by_cases secondInside : second < keys.length
    · rw [listedKey_of_lt secondInside] at same
      have below := listed secondInside
      omega
    · rw [listedKey_of_le (Nat.le_of_not_lt secondInside)] at same
      omega

/-- Gives the keys from zero on the keys of a list, and all later ones the keys after it. -/
def ofKeys (keys : List Nat) (next : Nat) (nodup : keys.Nodup)
    (bound : ∀ key ∈ keys, key < next) : Renaming where
  key := listedKey keys next
  injective := listedKey_injective nodup bound
  start := keys.length
  key_succ := by
    intro old behind
    rw [listedKey_of_le behind, listedKey_of_le (Nat.le_succ_of_le behind)]
    omega

end Listed

end Renaming

/-- A mass under another key. -/
def Mass.rename (names : Renaming) (mass : Mass) : Mass :=
  { mass with key := names.key mass.key }

/-- A spring under another key, with its ends under other keys. -/
def Spring.rename (names : Renaming) (spring : Spring) : Spring :=
  { spring with
    key := names.key spring.key
    source := spring.source.rename names
    destination := spring.destination.rename names }

variable (names : Renaming)

namespace Mass

@[simp] theorem rename_key (mass : Mass) :
    (mass.rename names).key = names.key mass.key := rfl

@[simp] theorem rename_kind (mass : Mass) : (mass.rename names).kind = mass.kind := rfl

@[simp] theorem rename_place (mass : Mass) : (mass.rename names).place = mass.place := rfl

@[simp] theorem rename_distanceTo (first second : Mass) :
    (first.rename names).distanceTo (second.rename names) = first.distanceTo second := rfl

@[simp] theorem rename_same (first second : Mass) :
    (first.rename names).same (second.rename names) = first.same second := by
  rw [Bool.eq_iff_iff]
  simp only [same, rename_key, beq_iff_eq, names.injective.eq_iff]

end Mass

namespace Spring

@[simp] theorem rename_line (spring : Spring) : (spring.rename names).line = spring.line := rfl

@[simp] theorem rename_touchesNetwork (spring : Spring) :
    (spring.rename names).touchesNetwork = spring.touchesNetwork := rfl

@[simp] theorem rename_same (first second : Spring) :
    (first.rename names).same (second.rename names) = first.same second := by
  rw [Bool.eq_iff_iff]
  simp only [same, rename, beq_iff_eq, names.injective.eq_iff]

@[simp] theorem rename_touches (spring : Spring) (mass : Mass) :
    (spring.rename names).touches (mass.rename names) = spring.touches mass := by
  simp only [touches, rename, Mass.rename_same]

theorem rename_joining (key : Nat) (source destination : Mass) :
    (joining key source destination).rename names =
      joining (names.key key) (source.rename names) (destination.rename names) := rfl

end Spring

namespace Graph

/-- A graph with all its keys renamed. -/
def rename (names : Renaming) (graph : Graph) : Graph where
  masses := graph.masses.map (Mass.rename names)
  springs := graph.springs.map (Spring.rename names)
  nextKey := names.key graph.nextKey

variable (graph : Graph)

section Questions

theorem rename_massesOfKind (kind : MassKind) :
    (graph.rename names).massesOfKind kind =
      (graph.massesOfKind kind).map (Mass.rename names) := by
  simp only [massesOfKind, rename, List.filter_map]
  rfl

@[simp] theorem rename_networkMasses : (graph.rename names).networkMasses =
    graph.networkMasses.map (Mass.rename names) :=
  graph.rename_massesOfKind names .network

@[simp] theorem rename_inputs : (graph.rename names).inputs =
    graph.inputs.map (Mass.rename names) :=
  graph.rename_massesOfKind names .input

@[simp] theorem rename_springsOf (mass : Mass) :
    (graph.rename names).springsOf (mass.rename names) =
      (graph.springsOf mass).map (Spring.rename names) := by
  simp only [springsOf, rename, List.filter_map, Function.comp_def, Spring.rename_touches]

@[simp] theorem rename_hasSpringBetween (first second : Mass) :
    (graph.rename names).hasSpringBetween (first.rename names) (second.rename names) =
      graph.hasSpringBetween first second := by
  simp only [hasSpringBetween, rename_springsOf, List.any_map, Function.comp_def,
    Spring.rename_touches]

@[simp] theorem rename_isUnconnected (mass : Mass) :
    (graph.rename names).isUnconnected (mass.rename names) = graph.isUnconnected mass := by
  simp only [isUnconnected, Mass.rename_kind, rename_springsOf, List.isEmpty_map]

@[simp] theorem rename_position? (mass : Mass) :
    (graph.rename names).position? (mass.rename names) = graph.position? mass := by
  simp only [position?, rename, List.findIdx?_map, Function.comp_def, Mass.rename_same]

private theorem anyM_map {α β ε : Type} (view : α → β) (test : β → Except ε Bool)
    (items : List α) : (items.map view).anyM test = items.anyM fun item => test (view item) := by
  induction items with
  | nil => rfl
  | cons item rest inductionHypothesis =>
    simp only [List.map_cons, List.anyM, inductionHypothesis]

@[simp] theorem rename_wouldCross (tolerance : Float) (source destination : Mass) :
    (graph.rename names).wouldCross tolerance (source.rename names)
      (destination.rename names) = graph.wouldCross tolerance source destination := by
  simp only [wouldCross, rename, anyM_map, Mass.rename_place, Spring.rename_line]

@[simp] theorem rename_isReachable (reach : Reach) (origin candidate : Mass) :
    (graph.rename names).isReachable reach (origin.rename names)
      (candidate.rename names) = graph.isReachable reach origin candidate := by
  simp only [isReachable, Mass.rename_same, Mass.rename_kind, Mass.rename_distanceTo,
    rename_wouldCross]

theorem rename_reachable (reach : Reach) (origin : Mass) :
    (graph.rename names).reachable reach (origin.rename names) =
      (graph.reachable reach origin).map (List.map (Mass.rename names)) := by
  have among : ∀ masses : List Mass,
      (graph.rename names).reachableAmong reach (origin.rename names)
          (masses.map (Mass.rename names)) =
        (graph.reachableAmong reach origin masses).map (List.map (Mass.rename names)) := by
    intro masses
    induction masses with
    | nil => rfl
    | cons candidate rest inductionHypothesis =>
      simp only [List.map_cons, reachableAmong, rename_isReachable, inductionHypothesis]
      cases graph.isReachable reach origin candidate with
      | error fault => rfl
      | ok reached =>
        cases graph.reachableAmong reach origin rest with
        | error fault => rfl
        | ok others => cases reached <;> rfl
  exact among graph.masses

end Questions

section Changes

variable {graph}

/-- A mass added to a renamed graph is the renamed mass. -/
theorem rename_addMass (later : names.start ≤ graph.nextKey) (x y : Float) (kind : MassKind) :
    (graph.rename names).addMass x y kind =
      ((graph.addMass x y kind).1.rename names, (graph.addMass x y kind).2.rename names) := by
  simp [addMass, newMass, append, rename, Mass.rename, names.key_succ _ later]

/-- A spring added to a renamed graph is the renamed spring. -/
theorem rename_addSpring (later : names.start ≤ graph.nextKey) (source destination : Mass) :
    (graph.rename names).addSpring (source.rename names) (destination.rename names) =
      ((graph.addSpring source destination).1.rename names,
        (graph.addSpring source destination).2.rename names) := by
  simp [addSpring, newSpring, appendSpring, rename, Spring.rename_joining,
    names.key_succ _ later]

theorem rename_removeSpring (spring : Spring) :
    (graph.rename names).removeSpring (spring.rename names) =
      (graph.removeSpring spring).map (rename names) := by
  simp only [removeSpring, rename, List.any_map, List.eraseP_map, Function.comp_def,
    Spring.rename_same]
  split <;> rfl

theorem rename_removeUnconnected :
    (graph.rename names).removeUnconnected =
      (graph.removeUnconnected.1, graph.removeUnconnected.2.rename names) := by
  have kept : (graph.rename names).masses.filter
        (fun mass => !(graph.rename names).isUnconnected mass) =
      (graph.masses.filter fun mass => !graph.isUnconnected mass).map (Mass.rename names) := by
    rw [show (graph.rename names).masses = graph.masses.map (Mass.rename names) from rfl,
      List.filter_map]
    simp only [Function.comp_def, rename_isUnconnected]
  simp only [removeUnconnected, kept, List.length_map]
  simp [rename]

theorem rename_removeNetwork :
    (graph.rename names).removeNetwork = graph.removeNetwork.rename names := by
  simp only [removeNetwork, rename, List.filter_map, Function.comp_def, Mass.rename_kind,
    Spring.rename_touchesNetwork]

end Changes

/-- What can be seen of a graph without its keys: its masses with their kinds and places, and its
springs as the positions of their ends, both in order. -/
structure Shape where
  masses : List (MassKind × Geometry.Point Float)
  springs : List (Option Nat × Option Nat)

/-- The shape of a graph. -/
def shape (graph : Graph) : Shape where
  masses := graph.masses.map fun mass => (mass.kind, mass.place)
  springs := graph.springs.map fun spring =>
    (graph.position? spring.source, graph.position? spring.destination)

/-- Keys are not to be seen. -/
theorem rename_shape : (graph.rename names).shape = graph.shape := by
  have masses : (graph.rename names).masses = graph.masses.map (Mass.rename names) := rfl
  have springs : (graph.rename names).springs = graph.springs.map (Spring.rename names) :=
    rfl
  simp only [shape, masses, springs, List.map_map, Function.comp_def, Mass.rename_kind,
    Mass.rename_place, Spring.rename, rename_position?]

end Graph

end SpringArm
