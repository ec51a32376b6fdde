import SpringArm.Proofs.Growth.Masses
import SpringArm.Proofs.Growth.Windows

/-!
# Levels of random masses

The height of a random mass is drawn above the cursor or below it, between the heights of the
shoulder and the hand away from it, and lowered to the hand. Above the cursor it is at least the
height of the shoulder. Below the cursor it is not kept from falling short of the shoulder: all that
is known is that it is no farther from zero than the shoulder is from the hand.
-/

namespace SpringArm.Growth

open Binary64 (valueOf rounded rounded_mono rounded_neg rounded_le le_rounded onGrid_valueOf
  OnGrid abs_rounded_le computes_add computes_sub le_iff_valueOf_le lt_iff_valueOf_lt valueOf_abs
  isFinite_abs valueOf_zero)

/-- The height of the cursor is between those of a shoulder and a hand at no negative height, and
the height of the hand above the cursor is in range. -/
structure Reaches (cursor shoulder hand : Mass) : Prop where
  cursor_isFinite : cursor.y.isFinite = true
  shoulder_isFinite : shoulder.y.isFinite = true
  hand_isFinite : hand.y.isFinite = true
  nonneg : 0 ≤ shoulder.y
  shoulder_le : shoulder.y ≤ cursor.y
  le_hand : cursor.y ≤ hand.y
  reach_isFinite : (cursor.y + hand.y).isFinite = true

namespace Reaches

variable {cursor shoulder hand : Mass} (reaches : Reaches cursor shoulder hand)

include reaches

theorem values : 0 ≤ valueOf shoulder.y ∧ valueOf shoulder.y ≤ valueOf cursor.y ∧
    valueOf cursor.y ≤ valueOf hand.y :=
  ⟨(le_iff_valueOf_le rfl reaches.shoulder_isFinite).mp reaches.nonneg,
    (le_iff_valueOf_le reaches.shoulder_isFinite reaches.cursor_isFinite).mp reaches.shoulder_le,
    (le_iff_valueOf_le reaches.cursor_isFinite reaches.hand_isFinite).mp reaches.le_hand⟩

theorem reach_value :
    valueOf (cursor.y + hand.y) = rounded (valueOf cursor.y + valueOf hand.y) :=
  (computes_add reaches.cursor_isFinite reaches.hand_isFinite).valueOf_eq reaches.reach_isFinite

/-- The window above the cursor is in range, and not below the shoulder. -/
theorem upper :
    let window : Interval := ⟨cursor.y + shoulder.y, cursor.y + hand.y⟩
    window.Proper ∧ window.width.isFinite = true ∧ valueOf shoulder.y ≤ valueOf window.low := by
  intro window
  obtain ⟨nonneg, shoulder_le, le_hand⟩ := reaches.values
  have sum := computes_add reaches.cursor_isFinite reaches.shoulder_isFinite
  have belowHigh : rounded (valueOf cursor.y + valueOf shoulder.y) ≤ valueOf window.high := by
    rw [reaches.reach_value]
    exact rounded_mono (by linarith)
  have lowFinite : window.low.isFinite = true :=
    sum.isFinite_of_le _ (by linarith) belowHigh
  have low := sum.valueOf_eq lowFinite
  have ordered : valueOf window.low ≤ valueOf window.high := by rwa [low]
  have lowNonneg : 0 ≤ valueOf window.low := by
    rw [low]
    exact le_rounded .zero (by linarith)
  refine ⟨⟨lowFinite, reaches.reach_isFinite, ?_⟩, ?_, ?_⟩
  · exact (le_iff_valueOf_le lowFinite reaches.reach_isFinite).mpr ordered
  · exact (computes_sub reaches.reach_isFinite lowFinite).isFinite_of_le window.high
      (sub_nonneg.mpr ordered) (rounded_le (onGrid_valueOf _) (by linarith))
  · rw [low]
    exact le_rounded (onGrid_valueOf _) (by linarith)

/-- The window below the cursor is in range, and no farther from zero than the shoulder from the
hand. -/
theorem lower :
    let window : Interval := ⟨cursor.y - hand.y, cursor.y - shoulder.y⟩
    window.Proper ∧ window.width.isFinite = true ∧ (hand.y - shoulder.y).isFinite = true ∧
      -valueOf (hand.y - shoulder.y) ≤ valueOf window.low ∧
      valueOf window.high ≤ valueOf (hand.y - shoulder.y) := by
  intro window
  obtain ⟨nonneg, shoulder_le, le_hand⟩ := reaches.values
  have toHand := computes_sub reaches.cursor_isFinite reaches.hand_isFinite
  have toShoulder := computes_sub reaches.cursor_isFinite reaches.shoulder_isFinite
  have length := computes_sub reaches.hand_isFinite reaches.shoulder_isFinite
  have lowFinite : window.low.isFinite = true := by
    apply toHand.isFinite_of_abs_le hand.y
    apply abs_rounded_le (onGrid_valueOf _)
    rw [abs_of_nonpos (by linarith), abs_of_nonneg (by linarith)]
    linarith
  have highFinite : window.high.isFinite = true :=
    toShoulder.isFinite_of_le cursor.y (by linarith) (rounded_le (onGrid_valueOf _) (by linarith))
  have lengthFinite : (hand.y - shoulder.y).isFinite = true :=
    length.isFinite_of_le hand.y (by linarith) (rounded_le (onGrid_valueOf _) (by linarith))
  have low := toHand.valueOf_eq lowFinite
  have high := toShoulder.valueOf_eq highFinite
  have ordered : valueOf window.low ≤ valueOf window.high := by
    rw [low, high]
    exact rounded_mono (by linarith)
  refine ⟨⟨lowFinite, highFinite, ?_⟩, ?_, lengthFinite, ?_, ?_⟩
  · exact (le_iff_valueOf_le lowFinite highFinite).mpr ordered
  · apply (computes_sub highFinite lowFinite).isFinite_of_le (cursor.y + hand.y)
      (sub_nonneg.mpr ordered)
    have atLeast : -valueOf hand.y ≤ valueOf window.low := by
      rw [low]
      exact le_rounded (onGrid_valueOf _).neg (by linarith)
    have atMost : valueOf window.high ≤ valueOf cursor.y := by
      rw [high]
      exact rounded_le (onGrid_valueOf _) (by linarith)
    rw [reaches.reach_value]
    exact rounded_mono (by linarith)
  · rw [low, length.valueOf_eq lengthFinite, ← rounded_neg]
    exact rounded_mono (by linarith)
  · rw [high, length.valueOf_eq lengthFinite]
    exact rounded_mono (by linarith)

end Reaches

variable {γ : Type} [Draws γ]

/-- The height of a mass is drawn above the cursor. -/
def Upwards (draws : γ) : Prop :=
  (Draws.unit (Draws.afterUnits 1 draws)).1 < 0.5

instance (draws : γ) : Decidable (Upwards draws) :=
  inferInstanceAs (Decidable (_ < _))

/-- A random mass is not above the hand, not below the shoulder if it was drawn above the cursor,
and otherwise no farther from zero than the shoulder is from the hand. -/
structure Leveled (allowNegative : Bool) (shoulder hand : Mass) (draws : γ) (mass : Mass) :
    Prop where
  network : mass.kind = .network
  isFinite : mass.y.isFinite = true
  le_hand : mass.y ≤ hand.y
  nonneg : allowNegative = false → 0 ≤ mass.y
  shoulder_le : Upwards draws → shoulder.y ≤ mass.y
  abs_le : ¬ Upwards draws → mass.y.abs ≤ hand.y - shoulder.y

section Heights

variable {cursor shoulder hand : Mass} (reaches : Reaches cursor shoulder hand) {draws : γ}
  (unital : Draws.Unital draws)

include reaches unital

/-- The number that is drawn for a height. -/
theorem drawnHeight_level :
    let heights : Interval := ⟨shoulder.y, hand.y⟩
    let drawn := (numberIn (windowAround cursor.y heights (Draws.afterUnits 1 draws)).1
      (Draws.afterUnits 3 draws)).1
    drawn.isFinite = true ∧ (Upwards draws → valueOf shoulder.y ≤ valueOf drawn) ∧
      (¬ Upwards draws → |valueOf drawn| ≤ valueOf (hand.y - shoulder.y)) := by
  intro heights drawn
  have value : ∀ {window : Interval}, window.Proper → window.width.isFinite = true →
      (windowAround cursor.y heights (Draws.afterUnits 1 draws)).1 = window →
      drawn.isFinite = true ∧ valueOf window.low ≤ valueOf drawn ∧
        valueOf drawn ≤ valueOf window.high := by
    rintro _ proper wide rfl
    obtain ⟨finite, ordered, -⟩ := numberIn_between (unital 3) wide
    obtain ⟨atLeast, atMost⟩ := ordered proper.ordered
    exact ⟨finite, (le_iff_valueOf_le proper.low_isFinite finite).mp atLeast,
      (le_iff_valueOf_le finite proper.high_isFinite).mp atMost⟩
  rw [windowAround_eq] at value
  by_cases upwards : Upwards draws
  · obtain ⟨proper, wide, aboveShoulder⟩ := reaches.upper
    obtain ⟨finite, atLeast, -⟩ := value proper wide (if_pos upwards)
    exact ⟨finite, fun _ => aboveShoulder.trans atLeast, fun downwards => absurd upwards downwards⟩
  · obtain ⟨proper, wide, -, aboveBottom, belowTop⟩ := reaches.lower
    obtain ⟨finite, atLeast, atMost⟩ := value proper wide (if_neg upwards)
    exact ⟨finite, fun upward => absurd upward upwards,
      fun _ => abs_le.mpr ⟨aboveBottom.trans atLeast, atMost.trans belowTop⟩⟩

/-- The height of a place before it is lowered to the hand. -/
theorem place_level (blueprint : Blueprint) (distanceX : Interval) :
    let y := (place blueprint cursor distanceX ⟨shoulder.y, hand.y⟩ draws).1.y
    y.isFinite = true ∧
      (blueprint.switches.allowNegativeYValues = false → 0 ≤ valueOf y) ∧
      (Upwards draws → valueOf shoulder.y ≤ valueOf y) ∧
      (¬ Upwards draws → |valueOf y| ≤ valueOf (hand.y - shoulder.y)) := by
  intro y
  obtain ⟨finite, upper, lower⟩ := drawnHeight_level reaches unital
  simp only [y, place_eq]
  cases blueprint.switches.allowNegativeYValues with
  | true => exact ⟨finite, nofun, upper, lower⟩
  | false =>
    simp only [Bool.false_eq_true, if_false, isFinite_abs, valueOf_abs, abs_abs]
    exact ⟨finite, fun _ => abs_nonneg _, fun upwards => (upper upwards).trans (le_abs_self _),
      lower⟩

/-- A random mass takes the next four numbers, and its height is the one that was drawn or that of
the hand. -/
theorem addRandomMass_leveled (blueprint : Blueprint) :
    let result := addRandomMass cursor shoulder hand blueprint draws
    result.2 = Draws.afterUnits 4 draws ∧ result.1.switches = blueprint.switches ∧
      ∃ mass, result.1.graph.masses = blueprint.graph.masses ++ [mass] ∧
        Leveled blueprint.switches.allowNegativeYValues shoulder hand draws mass := by
  intro result
  obtain ⟨finite, nonneg, upper, lower⟩ := place_level reaches unital blueprint blueprint.window
  obtain ⟨shoulderNonneg, shoulder_le, le_hand⟩ := reaches.values
  obtain ⟨-, -, lengthFinite, -, -⟩ := reaches.lower
  refine ⟨?_, rfl, _, rfl, ?_⟩
  · simp only [result, addRandomMass, place_eq]
  have lowered := valueOf_smaller finite reaches.hand_isFinite
  have loweredFinite := isFinite_smaller finite reaches.hand_isFinite
  constructor
  case network => rfl
  case isFinite => exact loweredFinite
  case le_hand =>
    refine (le_iff_valueOf_le loweredFinite reaches.hand_isFinite).mpr ?_
    rw [lowered]
    exact min_le_right _ _
  case nonneg =>
    intro upright
    refine (le_iff_valueOf_le rfl loweredFinite).mpr ?_
    rw [lowered, valueOf_zero]
    exact le_min (nonneg upright) (by linarith)
  case shoulder_le =>
    intro upwards
    refine (le_iff_valueOf_le reaches.shoulder_isFinite loweredFinite).mpr ?_
    rw [lowered]
    exact le_min (upper upwards) (by linarith)
  case abs_le =>
    intro downwards
    have absFinite := (isFinite_abs _).trans loweredFinite
    refine (le_iff_valueOf_le absFinite lengthFinite).mpr ?_
    rw [valueOf_abs, lowered]
    obtain ⟨atLeast, atMost⟩ := abs_le.mp (lower downwards)
    exact abs_le.mpr ⟨le_min atLeast (by linarith), (min_le_left _ _).trans atMost⟩

/-- Each random mass takes the next four numbers. -/
theorem repeatRandomMass_leveled (count : Nat) (blueprint : Blueprint) :
    let result := repeatRandomMass cursor shoulder hand count blueprint draws
    result.2 = Draws.afterUnits (4 * count) draws ∧
      ∃ random, result.1.graph.masses = blueprint.graph.masses ++ random ∧
        random.length = count ∧
        ∀ (index : Nat) (inside : index < random.length),
          Leveled blueprint.switches.allowNegativeYValues shoulder hand
            (Draws.afterUnits (4 * index) draws) random[index] := by
  induction count generalizing blueprint draws with
  | zero => exact ⟨rfl, [], by simp [repeatRandomMass]⟩
  | succ count inductionHypothesis =>
    obtain ⟨used, switches, mass, added, leveled⟩ := addRandomMass_leveled reaches unital blueprint
    rw [repeatRandomMass]
    -- the later masses are made from what the first one has left of the draws
    generalize addRandomMass cursor shoulder hand blueprint draws = grown at used switches added
    obtain ⟨grown, remaining⟩ := grown
    dsimp only at used switches added ⊢
    subst used
    obtain ⟨usedLater, later, masses, length, each⟩ :=
      inductionHypothesis (unital.afterUnits 4) grown
    rw [switches] at each
    refine ⟨?_, mass :: later, ?_, by simp [length], ?_⟩
    · rw [usedLater, Draws.afterUnits_add, Nat.mul_succ, Nat.add_comm]
    · rw [masses, added, List.append_assoc]
      rfl
    · rintro (_ | index) inside
      · exact leveled
      · have next := each index (Nat.lt_of_succ_lt_succ inside)
        rw [Draws.afterUnits_add, Nat.add_comm, ← Nat.mul_succ] at next
        exact next

end Heights

/-- The random masses come behind the others, as many as are asked for, each made with four of the
numbers that are drawn in turn. Around a cursor between the shoulder and the hand none of them is
above the hand, and those that were drawn above the cursor are not below the shoulder. -/
theorem addRandomMasses_leveled {blueprint : Blueprint} {cursor shoulder hand : Mass} {draws : γ}
    (isShoulder : blueprint.shoulder = some shoulder) (isHand : blueprint.hand = some hand)
    (reaches : Reaches cursor shoulder hand) (unital : Draws.Unital draws) :
    let result := (addRandomMasses blueprint cursor draws).value
    ∃ random, result.2.1.graph.masses = blueprint.graph.masses ++ random ∧
      (random.length : Int) = result.1 ∧ random.length = blueprint.randomMasses.toNat ∧
      result.2.2 = Draws.afterUnits (4 * random.length) draws ∧
      ∀ (index : Nat) (inside : index < random.length),
        Leveled blueprint.switches.allowNegativeYValues shoulder hand
          (Draws.afterUnits (4 * index) draws) random[index] := by
  intro result
  simp only [result, addRandomMasses, isShoulder, isHand]
  split
  next none =>
    have nothing : blueprint.randomMasses.toNat = 0 := Int.toNat_eq_zero.mpr none
    exact ⟨[], by simp [nothing, Draws.afterUnits]⟩
  next some =>
    obtain ⟨used, random, masses, length, each⟩ :=
      repeatRandomMass_leveled reaches unital blueprint.randomMasses.toNat blueprint
    refine ⟨random, masses, ?_, length, length ▸ used, each⟩
    rw [length, Int.toNat_of_nonneg (by omega)]

/-- An arm above zero with random masses. -/
def raisedArm (count : Int) : Blueprint where
  shoulder := some ⟨0, 0, 5, .shoulder⟩
  hand := some ⟨1, 0, 10, .hand⟩
  randomMasses := count

/-- Two random masses around a cursor between the shoulder and the hand: the second one is drawn
above the cursor. -/
theorem addRandomMasses_leveled_sample :
    let draws : ScriptedDraws := ⟨#[0.25, 0.75, 0.5, 0.5, 0.25, 0.25, 0.5, 0.5], 0⟩
    let cursor : Mass := ⟨2, 0, 6, .input⟩
    Reaches cursor ⟨0, 0, 5, .shoulder⟩ ⟨1, 0, 10, .hand⟩ ∧ Draws.Unital draws ∧
      Upwards (Draws.afterUnits 4 draws) ∧
      ∃ first second,
        (addRandomMasses (raisedArm 2) cursor draws).value.2.1.graph.masses = [first, second] ∧
        first.y ≤ 10 ∧ first.y.abs ≤ 10 - 5 ∧ 5 ≤ second.y ∧ second.y ≤ 10 := by
  intro draws cursor
  have reaches : Reaches cursor ⟨0, 0, 5, .shoulder⟩ ⟨1, 0, 10, .hand⟩ := by
    constructor <;> decide +kernel
  have unital : Draws.Unital draws := ScriptedDraws.unital (by decide +kernel)
  have downwards : ¬ Upwards draws := by decide +kernel
  have upwards : Upwards (Draws.afterUnits 4 draws) := by decide +kernel
  obtain ⟨random, masses, -, two, -, each⟩ :=
    addRandomMasses_leveled (show (raisedArm 2).shoulder = some _ from rfl)
      (show (raisedArm 2).hand = some _ from rfl) reaches unital
  obtain ⟨first, second, rfl⟩ := List.length_eq_two.mp two
  have low := each 0 Nat.zero_lt_two
  have high := each 1 Nat.one_lt_two
  exact ⟨reaches, unital, upwards, first, second, masses, low.le_hand, low.abs_le downwards,
    high.shoulder_le upwards, high.le_hand⟩

/-- A random mass below the shoulder, and one of undefined height where the reach is not in
range. -/
theorem addRandomMasses_leveled_fails :
    (∃ mass ∈ (addRandomMasses (raisedArm 1) ⟨2, 0, 6, .input⟩
        (SeededDraws.ofSeed 1)).value.2.1.graph.masses, mass.kind = .network ∧ mass.y < 5) ∧
    (∃ mass ∈ (addRandomMasses
        { shoulder := some ⟨0, 0, 0, .shoulder⟩, hand := some ⟨1, 0, 1.7e308, .hand⟩,
          randomMasses := 1 }
        ⟨2, 0, 1.7e308, .input⟩ (⟨#[0], 0⟩ : ScriptedDraws)).value.2.1.graph.masses,
      mass.kind = .network ∧ mass.y.isNaN = true) := by
  decide +kernel

end SpringArm.Growth
