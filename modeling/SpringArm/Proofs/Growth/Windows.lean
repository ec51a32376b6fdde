import SpringArm.Growth.Placement
import SpringArm.Proofs.Draws.Unital
import SpringArm.Proofs.Graph.Sound

/-!
# Windows of new masses

A letter places its mass on one side of the cursor, in a window that is narrowed to the window of
the blueprint. The number is drawn between the bounds of the narrowed window, whichever of them is
the larger one. So the mass lies in the window of the blueprint if the side that was drawn meets it,
and between the two if it does not: then the narrowed window is reversed.
-/

namespace SpringArm

open Binary64 (valueOf rounded_mono computes_add computes_sub le_iff_valueOf_le lt_iff_valueOf_lt
  isFinite_of_isFinite_sub draw_spec)

section Extremum

variable {first second : Float} (finite : first.isFinite = true)
  (otherFinite : second.isFinite = true)

include finite otherFinite

theorem valueOf_larger : valueOf (larger first second) = max (valueOf first) (valueOf second) := by
  rw [larger]
  split
  next below =>
    rw [lt_iff_valueOf_lt finite otherFinite] at below
    exact (max_eq_right below.le).symm
  next notBelow =>
    rw [lt_iff_valueOf_lt finite otherFinite, not_lt] at notBelow
    exact (max_eq_left notBelow).symm

theorem valueOf_smaller :
    valueOf (smaller first second) = min (valueOf first) (valueOf second) := by
  rw [smaller]
  split
  next below =>
    rw [lt_iff_valueOf_lt otherFinite finite] at below
    exact (min_eq_right below.le).symm
  next notBelow =>
    rw [lt_iff_valueOf_lt otherFinite finite, not_lt] at notBelow
    exact (min_eq_left notBelow).symm

theorem isFinite_smaller : (smaller first second).isFinite = true := by
  rw [smaller]
  split
  · exact otherFinite
  · exact finite

omit finite

/-- The larger of two doubles is at least the second one, whatever the first one is. -/
theorem le_larger (larger_isFinite : (larger first second).isFinite = true) :
    second ≤ larger first second := by
  rw [le_iff_valueOf_le otherFinite larger_isFinite]
  rw [larger] at larger_isFinite ⊢
  split at larger_isFinite
  next below => rw [if_pos below]
  next notBelow =>
    rw [if_neg notBelow]
    rw [lt_iff_valueOf_lt larger_isFinite otherFinite, not_lt] at notBelow
    exact notBelow

theorem smaller_le (smaller_isFinite : (smaller first second).isFinite = true) :
    smaller first second ≤ second := by
  rw [le_iff_valueOf_le smaller_isFinite otherFinite]
  rw [smaller] at smaller_isFinite ⊢
  split at smaller_isFinite
  next below => rw [if_pos below]
  next notBelow =>
    rw [if_neg notBelow]
    rw [lt_iff_valueOf_lt otherFinite smaller_isFinite, not_lt] at notBelow
    exact notBelow

end Extremum

/-- The bounds of an interval are finite and in order. -/
structure Interval.Proper (interval : Interval) : Prop where
  low_isFinite : interval.low.isFinite = true
  high_isFinite : interval.high.isFinite = true
  ordered : interval.low ≤ interval.high

instance (interval : Interval) : Decidable interval.Proper :=
  decidable_of_iff (interval.low.isFinite = true ∧ interval.high.isFinite = true ∧
      interval.low ≤ interval.high)
    ⟨fun ⟨low, high, ordered⟩ => ⟨low, high, ordered⟩,
      fun proper => ⟨proper.low_isFinite, proper.high_isFinite, proper.ordered⟩⟩

theorem Interval.Proper.valueOf_le {interval : Interval} (proper : interval.Proper) :
    valueOf interval.low ≤ valueOf interval.high :=
  (le_iff_valueOf_le proper.low_isFinite proper.high_isFinite).mp proper.ordered

theorem Interval.contains_iff {interval : Interval} {value : Float} :
    interval.contains value = true ↔ interval.low ≤ value ∧ value ≤ interval.high := by
  rw [contains, Bool.and_eq_true, decide_eq_true_eq, decide_eq_true_eq]

/-- What lies in a narrowed interval lies in the interval it was narrowed to. -/
theorem Interval.Proper.contains_of_tighter {first second : Interval} (proper : second.Proper)
    {value : Float} (finite : value.isFinite = true)
    (lowFinite : (first.tighter second).low.isFinite = true)
    (highFinite : (first.tighter second).high.isFinite = true)
    (atLeast : (first.tighter second).low ≤ value)
    (atMost : value ≤ (first.tighter second).high) : second.contains value = true := by
  have above : second.low ≤ (first.tighter second).low := le_larger proper.low_isFinite lowFinite
  have below : (first.tighter second).high ≤ second.high :=
    smaller_le proper.high_isFinite highFinite
  rw [le_iff_valueOf_le proper.low_isFinite lowFinite] at above
  rw [le_iff_valueOf_le highFinite proper.high_isFinite] at below
  rw [le_iff_valueOf_le lowFinite finite] at atLeast
  rw [le_iff_valueOf_le finite highFinite] at atMost
  rw [contains_iff, le_iff_valueOf_le proper.low_isFinite finite,
    le_iff_valueOf_le finite proper.high_isFinite]
  exact ⟨above.trans atLeast, atMost.trans below⟩

namespace Interval.Proper

variable {first second : Interval} (proper : first.Proper) (otherProper : second.Proper)

include proper otherProper

/-- Two intervals that meet are not reversed by narrowing one to the other. -/
theorem tighter_ordered (fromBelow : first.low ≤ second.high) (fromAbove : second.low ≤ first.high)
    (lowFinite : (first.tighter second).low.isFinite = true)
    (highFinite : (first.tighter second).high.isFinite = true) :
    (first.tighter second).low ≤ (first.tighter second).high := by
  have low : valueOf (first.tighter second).low = max (valueOf first.low) (valueOf second.low) :=
    valueOf_larger proper.low_isFinite otherProper.low_isFinite
  have high :
      valueOf (first.tighter second).high = min (valueOf first.high) (valueOf second.high) :=
    valueOf_smaller proper.high_isFinite otherProper.high_isFinite
  rw [le_iff_valueOf_le lowFinite highFinite, low, high]
  rw [le_iff_valueOf_le proper.low_isFinite otherProper.high_isFinite] at fromBelow
  rw [le_iff_valueOf_le otherProper.low_isFinite proper.high_isFinite] at fromAbove
  exact max_le (le_min proper.valueOf_le fromBelow) (le_min fromAbove otherProper.valueOf_le)

/-- If the first interval lies behind the second one, narrowing leaves the bounds of the gap. -/
theorem tighter_behind (behind : second.high < first.low) :
    first.tighter second = ⟨first.low, second.high⟩ := by
  rw [lt_iff_valueOf_lt otherProper.high_isFinite proper.low_isFinite] at behind
  have low : ¬ first.low < second.low := by
    rw [lt_iff_valueOf_lt proper.low_isFinite otherProper.low_isFinite, not_lt]
    exact otherProper.valueOf_le.trans behind.le
  have high : second.high < first.high := by
    rw [lt_iff_valueOf_lt otherProper.high_isFinite proper.high_isFinite]
    exact behind.trans_le proper.valueOf_le
  rw [tighter, larger, smaller, if_neg low, if_pos high]

/-- If the first interval lies before the second one, narrowing leaves the bounds of the gap. -/
theorem tighter_before (before : first.high < second.low) :
    first.tighter second = ⟨second.low, first.high⟩ := by
  rw [lt_iff_valueOf_lt proper.high_isFinite otherProper.low_isFinite] at before
  have low : first.low < second.low := by
    rw [lt_iff_valueOf_lt proper.low_isFinite otherProper.low_isFinite]
    exact proper.valueOf_le.trans_lt before
  have high : ¬ second.high < first.high := by
    rw [lt_iff_valueOf_lt otherProper.high_isFinite proper.high_isFinite, not_lt]
    exact before.le.trans otherProper.valueOf_le
  rw [tighter, larger, smaller, if_pos low, if_neg high]

end Interval.Proper

namespace Growth

variable {γ : Type} [Draws γ]

/-- The side of a cursor takes one number. -/
theorem windowAround_eq (center : Float) (distance : Interval) (draws : γ) :
    windowAround center distance draws =
      (if (Draws.unit draws).1 < 0.5 then ⟨center + distance.low, center + distance.high⟩
        else ⟨center - distance.high, center - distance.low⟩, (Draws.unit draws).2) := by
  unfold windowAround
  dsimp only
  split <;> rfl

/-- A place takes four numbers: the sides, then the coordinates. -/
theorem place_eq (blueprint : Blueprint) (cursor : Mass) (distanceX distanceY : Interval)
    (draws : γ) :
    let sideX := (windowAround cursor.x distanceX draws).1
    let windowY := (windowAround cursor.y distanceY (Draws.afterUnits 1 draws)).1
    let x := (numberIn (sideX.tighter blueprint.window) (Draws.afterUnits 2 draws)).1
    let y := (numberIn windowY (Draws.afterUnits 3 draws)).1
    place blueprint cursor distanceX distanceY draws =
      (⟨x, if blueprint.switches.allowNegativeYValues then y else y.abs⟩,
        Draws.afterUnits 4 draws) := by
  simp only [place, numberIn, windowAround_eq, Draws.afterUnits]

/-- The bounds of a side of a cursor are in order. -/
theorem windowAround_proper {center : Float} {distance : Interval} {draws : γ}
    (finite : center.isFinite = true) (proper : distance.Proper)
    (lowFinite : (windowAround center distance draws).1.low.isFinite = true)
    (highFinite : (windowAround center distance draws).1.high.isFinite = true) :
    (windowAround center distance draws).1.Proper := by
  have ordered := proper.valueOf_le
  refine ⟨lowFinite, highFinite, (le_iff_valueOf_le lowFinite highFinite).mpr ?_⟩
  rw [windowAround_eq] at lowFinite highFinite ⊢
  split at lowFinite
  next upper =>
    rw [if_pos upper] at highFinite ⊢
    rw [(computes_add finite proper.low_isFinite).valueOf_eq lowFinite,
      (computes_add finite proper.high_isFinite).valueOf_eq highFinite]
    exact rounded_mono (by linarith)
  next lower =>
    rw [if_neg lower] at highFinite ⊢
    rw [(computes_sub finite proper.high_isFinite).valueOf_eq lowFinite,
      (computes_sub finite proper.low_isFinite).valueOf_eq highFinite]
    exact rounded_mono (by linarith)

/-- A number drawn from a window whose width is in range is finite and lies between its bounds. -/
theorem numberIn_between {window : Interval} {draws : γ}
    (inUnit : Binary64.InUnit (Draws.unit draws).1) (wide : window.width.isFinite = true) :
    (numberIn window draws).1.isFinite = true ∧
      (window.low ≤ window.high →
        window.low ≤ (numberIn window draws).1 ∧ (numberIn window draws).1 ≤ window.high) ∧
      (window.high ≤ window.low →
        window.high ≤ (numberIn window draws).1 ∧ (numberIn window draws).1 ≤ window.low) :=
  draw_spec inUnit wide

theorem createMass_x (blueprint : Blueprint) (cursor : Mass) (distance : Interval) (draws : γ) :
    (createMass blueprint cursor distance draws).1.x =
      (numberIn ((windowAround cursor.x distance draws).1.tighter blueprint.window)
        (Draws.afterUnits 2 draws)).1 := by
  change (place blueprint cursor distance distance draws).1.x = _
  rw [place_eq]

/-- A letter adds its mass behind the others. If the width of the narrowed window is in range, the
mass lies in the window of the blueprint, unless the narrowed window is reversed: then it lies
between the side that was drawn and the window of the blueprint. -/
theorem createMass_between {blueprint : Blueprint} (cursor : Mass) {distance : Interval} {draws : γ}
    (window : blueprint.window.Proper) (proper : distance.Proper) (unital : Draws.Unital draws) :
    let side := (windowAround cursor.x distance draws).1
    let narrowed := side.tighter blueprint.window
    let created := createMass blueprint cursor distance draws
    created.2.1 = { blueprint with graph := created.2.1.graph } ∧
    created.2.1.graph.masses = blueprint.graph.masses ++ [created.1] ∧
    (narrowed.width.isFinite = true →
      created.1.x.isFinite = true ∧
      (narrowed.low ≤ narrowed.high → blueprint.window.contains created.1.x = true) ∧
      (narrowed.high ≤ narrowed.low →
        narrowed.high ≤ created.1.x ∧ created.1.x ≤ narrowed.low) ∧
      (cursor.x.isFinite = true → side.low.isFinite = true → side.high.isFinite = true →
        (side.low ≤ blueprint.window.high → blueprint.window.low ≤ side.high →
          blueprint.window.contains created.1.x = true) ∧
        (blueprint.window.high < side.low →
          blueprint.window.high ≤ created.1.x ∧ created.1.x ≤ side.low) ∧
        (side.high < blueprint.window.low →
          side.high ≤ created.1.x ∧ created.1.x ≤ blueprint.window.low))) := by
  intro side narrowed created
  refine ⟨rfl, rfl, fun wide => ?_⟩
  obtain ⟨highFinite, lowFinite⟩ := isFinite_of_isFinite_sub wide
  obtain ⟨finite, ordered, reversed⟩ := numberIn_between (unital 2) wide
  rw [← createMass_x] at finite ordered reversed
  have inside : narrowed.low ≤ narrowed.high → blueprint.window.contains created.1.x = true := by
    intro order
    obtain ⟨atLeast, atMost⟩ := ordered order
    exact window.contains_of_tighter finite lowFinite highFinite atLeast atMost
  refine ⟨finite, inside, reversed, fun cursorFinite sideLow sideHigh => ?_⟩
  have sideProper : side.Proper := windowAround_proper cursorFinite proper sideLow sideHigh
  refine ⟨fun fromBelow fromAbove => inside ?_, fun behind => ?_, fun before => ?_⟩
  · exact sideProper.tighter_ordered window fromBelow fromAbove lowFinite highFinite
  · have gap : narrowed = ⟨side.low, blueprint.window.high⟩ :=
      sideProper.tighter_behind window behind
    rw [gap] at reversed
    exact reversed (Binary64.le_of_lt behind)
  · have gap : narrowed = ⟨blueprint.window.low, side.high⟩ :=
      sideProper.tighter_before window before
    rw [gap] at reversed
    exact reversed (Binary64.le_of_lt before)

/-- A distance that reaches beyond the window. -/
theorem createMass_between_sample :
    let blueprint : Blueprint := { window := ⟨-3, 3⟩ }
    let cursor : Mass := ⟨0, 0, 1, .input⟩
    let draws := SeededDraws.ofSeed 1
    let narrowed := (windowAround cursor.x ⟨1, 5⟩ draws).1.tighter blueprint.window
    blueprint.window.Proper ∧ (⟨1, 5⟩ : Interval).Proper ∧ Draws.Unital draws ∧
      narrowed.width.isFinite = true ∧ narrowed.low ≤ narrowed.high ∧
      blueprint.window.contains (createMass blueprint cursor ⟨1, 5⟩ draws).1.x = true := by
  intro blueprint cursor draws narrowed
  have window : blueprint.window.Proper := by decide +kernel
  have proper : (⟨1, 5⟩ : Interval).Proper := by decide +kernel
  have wide : narrowed.width.isFinite = true := by decide +kernel
  have ordered : narrowed.low ≤ narrowed.high := by decide +kernel
  obtain ⟨-, -, between⟩ := createMass_between cursor window proper draws.unital
  obtain ⟨-, inside, -⟩ := between wide
  exact ⟨window, proper, draws.unital, wide, ordered, inside ordered⟩

/-- A distance that does not reach the window, and a window whose width is not in range. -/
theorem createMass_between_fails :
    let cursor : Mass := ⟨0, 0, 1, .input⟩
    let draws := SeededDraws.ofSeed 1
    let apart : Blueprint := { window := ⟨5, 6⟩ }
    let wide : Blueprint := { window := ⟨-1.7e308, 1.7e308⟩ }
    (apart.window.Proper ∧ (⟨1, 2⟩ : Interval).Proper ∧
      apart.window.contains (createMass apart cursor ⟨1, 2⟩ draws).1.x = false) ∧
    (wide.window.Proper ∧ (⟨-1.7e308, 1.7e308⟩ : Interval).Proper ∧
      wide.window.contains (createMass wide cursor ⟨-1.7e308, 1.7e308⟩ draws).1.x = false) := by
  decide +kernel

end Growth

end SpringArm
