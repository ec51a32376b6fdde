import Mathlib
import SpringArm.Geometry.Segment

/-!
# Meeting segments

Over an ordered field, where nothing is rounded, the test on turns and boxes is exact: two segments
meet just when they have a point in common, and segments of length zero are no exception. So whether
two segments meet or cross depends neither on their order nor on their directions.
-/

namespace SpringArm

theorem smaller_eq_min {α : Type} [LinearOrder α] (first second : α) :
    smaller first second = min first second := by
  unfold smaller
  split
  next below => exact (min_eq_right below.le).symm
  next above => exact (min_eq_left (not_lt.mp above)).symm

theorem larger_eq_max {α : Type} [LinearOrder α] (first second : α) :
    larger first second = max first second := by
  unfold larger
  split
  next below => exact (max_eq_right below.le).symm
  next above => exact (max_eq_left (not_lt.mp above)).symm

namespace Geometry

variable {K : Type} [Field K] [LinearOrder K]

/-- The coordinates of a point as a pair. -/
def Point.pair {α : Type} (point : Point α) : α × α :=
  (point.x, point.y)

/-- The points of a closed segment. -/
def Segment.points (path : Segment K) : Set (K × K) :=
  segment K path.start.pair path.finish.pair

/-- A segment in the other direction. -/
def Segment.reversed {α : Type} (path : Segment α) : Segment α :=
  ⟨path.finish, path.start⟩

/-- The point that divides a segment in a given share, counted from its start. -/
def Segment.at (path : Segment K) (share : K) : Point K :=
  ⟨path.start.x + share * (path.finish.x - path.start.x),
    path.start.y + share * (path.finish.y - path.start.y)⟩

/-- The cross product whose sign is the turn of a path. -/
def cross (a b c : Point K) : K :=
  (b.x - a.x) * (c.y - a.y) - (b.y - a.y) * (c.x - a.x)

section Shares

variable [IsStrictOrderedRing K] {first second share : K}

/-- Between two numbers on different sides of zero lies zero. -/
theorem exists_share_eq_zero (different : first ≠ second)
    (sides : first ≤ 0 ∧ 0 ≤ second ∨ 0 ≤ first ∧ second ≤ 0) :
    ∃ share, 0 ≤ share ∧ share ≤ 1 ∧ (1 - share) * first + share * second = 0 := by
  have gap : first - second ≠ 0 := sub_ne_zero.mpr different
  refine ⟨first / (first - second), ?_, ?_, by field_simp; ring⟩
  · rcases sides with ⟨below, above⟩ | ⟨above, below⟩
    · exact div_nonneg_of_nonpos below (by linarith)
    · exact div_nonneg above (by linarith)
  · rcases sides with ⟨below, above⟩ | ⟨above, below⟩
    · exact (div_le_one_of_neg (lt_of_le_of_ne (by linarith) gap)).mpr (by linarith)
    · exact (div_le_one (lt_of_le_of_ne (by linarith) gap.symm)).mpr (by linarith)

/-- Between two positive numbers there are only positive ones. -/
theorem share_pos (firstPos : 0 < first) (secondPos : 0 < second) (above : 0 ≤ share)
    (below : share ≤ 1) : 0 < (1 - share) * first + share * second := by
  rcases above.eq_or_lt with rfl | inside
  · simpa using firstPos
  · exact add_pos_of_nonneg_of_pos (mul_nonneg (sub_nonneg.mpr below) firstPos.le)
      (mul_pos inside secondPos)

/-- Of two intervals with a number in common, one contains an end of the other. The first interval
leads from zero to one here. -/
theorem exists_end_inside (above : 0 ≤ share) (below : share ≤ 1)
    (low : 0 ≤ (1 - share) * first + share * second)
    (high : (1 - share) * first + share * second ≤ 1) :
    (0 ≤ first ∧ first ≤ 1) ∨ (0 ≤ second ∧ second ≤ 1) ∨
      ∃ other, 0 ≤ other ∧ other ≤ 1 ∧ (1 - other) * first + other * second = 0 := by
  by_cases firstNeg : first < 0
  · by_cases secondNeg : second < 0
    · have positive := share_pos (neg_pos.mpr firstNeg) (neg_pos.mpr secondNeg) above below
      linarith
    · have secondNonneg := not_lt.mp secondNeg
      exact .inr (.inr (exists_share_eq_zero (by linarith) (.inl ⟨firstNeg.le, secondNonneg⟩)))
  · have firstNonneg := not_lt.mp firstNeg
    by_cases secondNeg : second < 0
    · exact .inr (.inr (exists_share_eq_zero (by linarith) (.inr ⟨firstNonneg, secondNeg.le⟩)))
    · have secondNonneg := not_lt.mp secondNeg
      by_cases firstLe : first ≤ 1
      · exact .inl ⟨firstNonneg, firstLe⟩
      · by_cases secondLe : second ≤ 1
        · exact .inr (.inl ⟨secondNonneg, secondLe⟩)
        · have positive := share_pos (sub_pos.mpr (not_le.mp firstLe))
            (sub_pos.mpr (not_le.mp secondLe)) above below
          linarith

end Shares

section Turns

variable {a b c d : Point K}

theorem turn_eq_ite :
    turn a b c = if 0 < cross a b c then .left else if cross a b c < 0 then .right else .straight :=
  rfl

theorem turn_eq_straight_iff : turn a b c = .straight ↔ cross a b c = 0 := by
  rw [turn_eq_ite]
  rcases lt_trichotomy (cross a b c) 0 with right | zero | left
  · simp [right, right.ne, right.not_gt]
  · simp [zero]
  · simp [left, left.ne']

variable [IsStrictOrderedRing K]

/-- Two points that are not on one side of a line are joined by a segment that comes to it. -/
theorem exists_share_of_turn_ne (different : turn a b c ≠ turn a b d) :
    cross a b c ≠ cross a b d ∧
      ∃ share, 0 ≤ share ∧ share ≤ 1 ∧ (1 - share) * cross a b c + share * cross a b d = 0 := by
  rw [turn_eq_ite, turn_eq_ite] at different
  have apart : cross a b c ≠ cross a b d := fun same => different (by rw [same])
  refine ⟨apart, exists_share_eq_zero apart ?_⟩
  rcases lt_trichotomy (cross a b c) 0 with first | first | first <;>
    rcases lt_trichotomy (cross a b d) 0 with second | second | second <;>
    simp_all [le_of_lt, not_lt_of_gt]

/-- A segment whose ends are on one side of a line comes to it only if it lies on it. -/
theorem cross_eq_zero_of_turn_eq (same : turn a b c = turn a b d) {share : K} (above : 0 ≤ share)
    (below : share ≤ 1) (meets : (1 - share) * cross a b c + share * cross a b d = 0) :
    cross a b c = 0 ∧ cross a b d = 0 := by
  rw [turn_eq_ite, turn_eq_ite] at same
  rcases lt_trichotomy (cross a b c) 0 with first | first | first <;>
    rcases lt_trichotomy (cross a b d) 0 with second | second | second <;>
    simp [first, second, not_lt_of_gt] at same
  · have positive := share_pos (neg_pos.mpr first) (neg_pos.mpr second) above below
    linarith
  · exact ⟨first, second⟩
  · exact absurd meets (share_pos first second above below).ne'

end Turns

theorem Point.pair_inj {α : Type} {first second : Point α} :
    first.pair = second.pair ↔ first = second := by
  cases first
  cases second
  simp [pair]

theorem Segment.points_reversed (path : Segment K) : path.reversed.points = path.points :=
  segment_symm K _ _

theorem Segment.boxContains_iff {α : Type} [LinearOrder α] {path : Segment α} {point : Point α} :
    path.boxContains point = true ↔
      (min path.start.x path.finish.x ≤ point.x ∧ point.x ≤ max path.start.x path.finish.x) ∧
        min path.start.y path.finish.y ≤ point.y ∧ point.y ≤ max path.start.y path.finish.y := by
  simp only [boxContains, smaller_eq_min, larger_eq_max, Bool.and_eq_true, decide_eq_true_eq,
    and_assoc]

theorem cross_at {K : Type} [Field K] (a b : Point K) (path : Segment K) (share : K) :
    cross a b (path.at share) =
      (1 - share) * cross a b path.start + share * cross a b path.finish := by
  simp only [cross, Segment.at]
  ring

theorem Segment.at_zero {K : Type} [Field K] (path : Segment K) : path.at 0 = path.start := by
  simp [Segment.at]

section Points

variable {path : Segment K} {point : Point K}

variable [IsStrictOrderedRing K]

/-- The numbers from one to another divide the way between them in a share. -/
private theorem between_iff_share {first second value : K} :
    min first second ≤ value ∧ value ≤ max first second ↔
      ∃ share, (0 ≤ share ∧ share ≤ 1) ∧ first + share * (second - first) = value := by
  have same := congrArg (value ∈ ·) (segment_eq_uIcc (𝕜 := K) first second)
  rw [segment_eq_image'] at same
  exact (iff_of_eq same).symm

/-- The points of a segment divide it in a share between zero and one. -/
theorem Segment.mem_points_iff {pair : K × K} :
    pair ∈ path.points ↔ ∃ share, 0 ≤ share ∧ share ≤ 1 ∧ (path.at share).pair = pair := by
  simp only [points, segment_eq_image', Set.mem_image, Set.mem_Icc, Point.pair, Segment.at,
    Prod.ext_iff, Prod.smul_def, Prod.fst_add, Prod.snd_add, Prod.fst_sub, Prod.snd_sub,
    smul_eq_mul, and_assoc]

/-- The test on a point: it lies on the line of the segment and in its box. -/
theorem Segment.mem_points_iff_straight :
    point.pair ∈ path.points ↔
      turn path.start path.finish point = .straight ∧ path.boxContains point = true := by
  simp only [mem_points_iff, turn_eq_straight_iff, boxContains_iff, Point.pair_inj,
    between_iff_share]
  constructor
  · rintro ⟨share, above, below, rfl⟩
    refine ⟨?_, ⟨share, ⟨above, below⟩, rfl⟩, ⟨share, ⟨above, below⟩, rfl⟩⟩
    simp only [cross, Segment.at]
    ring
  · rintro ⟨straight, ⟨shareX, ⟨aboveX, belowX⟩, sameX⟩, ⟨shareY, ⟨aboveY, belowY⟩, sameY⟩⟩
    -- The two shares agree unless the segment is level or upright, and then one of them is free.
    have agree : (path.finish.x - path.start.x) * (path.finish.y - path.start.y) *
        (shareY - shareX) = 0 := by
      rw [cross, ← sameX, ← sameY] at straight
      linear_combination straight
    cases point
    rcases mul_eq_zero.mp agree with corner | equal
    · rcases mul_eq_zero.mp corner with upright | level
      · refine ⟨shareY, aboveY, belowY, ?_⟩
        simp_all [Segment.at]
      · refine ⟨shareX, aboveX, belowX, ?_⟩
        simp_all [Segment.at]
    · obtain rfl : shareY = shareX := sub_eq_zero.mp equal
      refine ⟨shareY, aboveY, belowY, ?_⟩
      simp_all [Segment.at]

end Points

section Meeting

variable [IsStrictOrderedRing K] {first second : Segment K}

/-- Segments that lie on different sides of each other's ends have a point in common. -/
theorem Segment.exists_common_of_turn_ne
    (apart : turn first.start first.finish second.start ≠
      turn first.start first.finish second.finish)
    (otherApart : turn second.start second.finish first.start ≠
      turn second.start second.finish first.finish) :
    (first.points ∩ second.points).Nonempty := by
  obtain ⟨different, share, above, below, meets⟩ := exists_share_of_turn_ne apart
  obtain ⟨-, other, otherAbove, otherBelow, otherMeets⟩ := exists_share_of_turn_ne otherApart
  refine ⟨(second.at share).pair, mem_points_iff.mpr ⟨other, otherAbove, otherBelow, ?_⟩,
    mem_points_iff.mpr ⟨share, above, below, rfl⟩⟩
  -- both shares divide their segments in the same point, as the two lines are not parallel
  rw [Point.pair_inj]
  have gap := sub_ne_zero.mpr different
  simp only [Segment.at, Point.mk.injEq]
  constructor <;> apply mul_left_cancel₀ gap <;> simp only [cross] at meets otherMeets ⊢
  · linear_combination (second.finish.x - second.start.x) * meets +
      (first.finish.x - first.start.x) * otherMeets
  · linear_combination (second.finish.y - second.start.y) * meets +
      (first.finish.y - first.start.y) * otherMeets

/-- A point on the line of a segment that is not a single point divides it in some share. -/
theorem Segment.exists_at_of_cross_eq_zero {path : Segment K} {point : Point K}
    (proper : path.start ≠ path.finish) (straight : cross path.start path.finish point = 0) :
    ∃ share, path.at share = point := by
  obtain ⟨⟨startX, startY⟩, ⟨finishX, finishY⟩⟩ := path
  obtain ⟨x, y⟩ := point
  simp only [cross] at straight
  simp only [Segment.at, Point.mk.injEq]
  by_cases upright : finishX - startX = 0
  · have rise : finishY - startY ≠ 0 := by
      intro level
      exact proper (by rw [sub_eq_zero.mp upright, sub_eq_zero.mp level])
    refine ⟨(y - startY) / (finishY - startY), ?_, by field_simp; ring⟩
    have reached : x - startX = 0 := by
      apply (mul_eq_zero.mp _).resolve_left rise
      linear_combination (y - startY) * upright - straight
    rw [upright, mul_zero, add_zero]
    exact (sub_eq_zero.mp reached).symm
  · refine ⟨(x - startX) / (finishX - startX), by field_simp; ring, ?_⟩
    field_simp
    linear_combination -straight

/-- The points of a line are told apart by their shares. -/
theorem Segment.at_injective {path : Segment K} (proper : path.start ≠ path.finish) :
    Function.Injective path.at := by
  intro share other same
  obtain ⟨⟨startX, startY⟩, ⟨finishX, finishY⟩⟩ := path
  simp only [Segment.at, Point.mk.injEq, add_right_inj, mul_eq_mul_right_iff, sub_eq_zero] at same
  obtain ⟨equal | upright, equal' | level⟩ := same
  · exact equal
  · exact equal
  · exact equal'
  · exact absurd (by rw [upright, level]) proper

/-- Segments on one line that have a point in common contain an end of one of them. -/
theorem Segment.exists_end_of_straight
    (start : cross first.start first.finish second.start = 0)
    (finish : cross first.start first.finish second.finish = 0)
    (common : (first.points ∩ second.points).Nonempty) :
    second.start.pair ∈ first.points ∨ second.finish.pair ∈ first.points ∨
      first.start.pair ∈ second.points := by
  obtain ⟨pair, inFirst, inSecond⟩ := common
  obtain ⟨other, otherAbove, otherBelow, rfl⟩ := mem_points_iff.mp inFirst
  by_cases proper : first.start = first.finish
  · have same : first.at other = first.start := by
      simp only [Segment.at, ← proper, sub_self, mul_zero, add_zero]
    exact .inr (.inr (same ▸ inSecond))
  · obtain ⟨share, above, below, same⟩ := mem_points_iff.mp inSecond
    -- The first segment measures all points: the second one leads from `low` to `high`.
    obtain ⟨low, atStart⟩ := exists_at_of_cross_eq_zero proper start
    obtain ⟨high, atFinish⟩ := exists_at_of_cross_eq_zero proper finish
    have measured : ∀ part, second.at part = first.at ((1 - part) * low + part * high) := by
      intro part
      simp only [Segment.at, ← atStart, ← atFinish, Point.mk.injEq]
      constructor <;> ring
    have position : (1 - share) * low + share * high = other := by
      apply at_injective proper
      rw [← measured, Point.pair_inj.mp same]
    rcases exists_end_inside above below (position ▸ otherAbove) (position ▸ otherBelow) with
      inside | inside | ⟨part, partAbove, partBelow, atZero⟩
    · exact .inl (mem_points_iff.mpr ⟨low, inside.1, inside.2, by rw [atStart]⟩)
    · exact .inr (.inl (mem_points_iff.mpr ⟨high, inside.1, inside.2, by rw [atFinish]⟩))
    · refine .inr (.inr (mem_points_iff.mpr ⟨part, partAbove, partBelow, ?_⟩))
      rw [measured, atZero, at_zero]

theorem Segment.meets_iff_ends :
    first.meets second = true ↔
      (turn first.start first.finish second.start ≠ turn first.start first.finish second.finish ∧
        turn second.start second.finish first.start ≠
          turn second.start second.finish first.finish) ∨
      second.start.pair ∈ first.points ∨ second.finish.pair ∈ first.points ∨
      first.start.pair ∈ second.points ∨ first.finish.pair ∈ second.points := by
  simp only [meets, mem_points_iff_straight, Bool.or_eq_true, Bool.and_eq_true, bne_iff_ne,
    beq_iff_eq, or_assoc]

theorem Segment.ends_mem (path : Segment K) :
    path.start.pair ∈ path.points ∧ path.finish.pair ∈ path.points :=
  ⟨left_mem_segment K _ _, right_mem_segment K _ _⟩

/-- A common point is on the line of the first segment, so the ends of the second one are not on one
side of it unless they are on it. -/
theorem Segment.straight_of_turn_eq (common : (first.points ∩ second.points).Nonempty)
    (same : turn first.start first.finish second.start =
      turn first.start first.finish second.finish) :
    cross first.start first.finish second.start = 0 ∧
      cross first.start first.finish second.finish = 0 := by
  obtain ⟨pair, inFirst, inSecond⟩ := common
  obtain ⟨share, above, below, rfl⟩ := mem_points_iff.mp inSecond
  obtain ⟨straight, -⟩ := mem_points_iff_straight.mp inFirst
  rw [turn_eq_straight_iff, cross_at] at straight
  exact cross_eq_zero_of_turn_eq same above below straight

/-- Two segments meet just when they have a point in common. -/
theorem Segment.meets_iff :
    first.meets second = true ↔ (first.points ∩ second.points).Nonempty := by
  rw [meets_iff_ends]
  constructor
  · rintro (⟨apart, otherApart⟩ | inside | inside | inside | inside)
    · exact exists_common_of_turn_ne apart otherApart
    · exact ⟨_, inside, second.ends_mem.1⟩
    · exact ⟨_, inside, second.ends_mem.2⟩
    · exact ⟨_, first.ends_mem.1, inside⟩
    · exact ⟨_, first.ends_mem.2, inside⟩
  · intro common
    by_cases apart : turn first.start first.finish second.start =
      turn first.start first.finish second.finish
    · obtain ⟨start, finish⟩ := straight_of_turn_eq common apart
      have ends := exists_end_of_straight start finish common
      tauto
    · by_cases otherApart : turn second.start second.finish first.start =
        turn second.start second.finish first.finish
      · have swapped : (second.points ∩ first.points).Nonempty := by rwa [Set.inter_comm]
        obtain ⟨start, finish⟩ := straight_of_turn_eq swapped otherApart
        have ends := exists_end_of_straight start finish swapped
        tauto
      · exact .inl ⟨apart, otherApart⟩

end Meeting

/-- Two points are near by exact arithmetic: the square of their distance is below that of a
tolerance. -/
def near (tolerance : K) (first second : Point K) : Id Bool :=
  decide ((first.x - second.x) * (first.x - second.x) + (first.y - second.y) * (first.y - second.y)
    < tolerance * tolerance)

theorem near_comm (tolerance : K) (first second : Point K) :
    near tolerance first second = near tolerance second first := by
  unfold near
  congr 2
  ring

/-- Whether two segments share just one end depends on neither their order nor their directions. -/
theorem Segment.joinedAtOneEnd_near (tolerance : K) (first second : Segment K) :
    second.joinedAtOneEnd (near tolerance) first = first.joinedAtOneEnd (near tolerance) second ∧
      first.reversed.joinedAtOneEnd (near tolerance) second =
        first.joinedAtOneEnd (near tolerance) second ∧
      first.joinedAtOneEnd (near tolerance) second.reversed =
        first.joinedAtOneEnd (near tolerance) second := by
  simp only [joinedAtOneEnd, reversed, near_comm tolerance second.start,
    near_comm tolerance second.finish, pure, bind]
  generalize near tolerance first.start second.start = startStart
  generalize near tolerance first.start second.finish = startFinish
  generalize near tolerance first.finish second.start = finishStart
  generalize near tolerance first.finish second.finish = finishFinish
  cases startStart <;> cases startFinish <;> cases finishStart <;> cases finishFinish <;>
    exact ⟨rfl, rfl, rfl⟩

section Crossing

variable [IsStrictOrderedRing K] (first second : Segment K)

theorem Segment.meets_comm : second.meets first = first.meets second := by
  rw [Bool.eq_iff_iff, meets_iff, meets_iff, Set.inter_comm]

theorem Segment.meets_reversed :
    first.reversed.meets second = first.meets second ∧
      first.meets second.reversed = first.meets second := by
  constructor <;> rw [Bool.eq_iff_iff, meets_iff, meets_iff, points_reversed]

/-- Exact arithmetic decides whether two segments have a point in common, and whether they cross is
the same in either order and in all directions. -/
theorem Segment.meets_exact :
    (first.meets second = true ↔ (first.points ∩ second.points).Nonempty) ∧
      ∀ tolerance : K,
        second.crosses (near tolerance) first = first.crosses (near tolerance) second ∧
          first.reversed.crosses (near tolerance) second =
            first.crosses (near tolerance) second ∧
          first.crosses (near tolerance) second.reversed =
            first.crosses (near tolerance) second := by
  refine ⟨meets_iff, fun tolerance => ?_⟩
  obtain ⟨joinedComm, joinedReversed, reversedJoined⟩ := joinedAtOneEnd_near tolerance first second
  obtain ⟨meetsReversed, reversedMeets⟩ := meets_reversed first second
  simp only [crosses, meets_comm first second, meetsReversed, reversedMeets, joinedComm,
    joinedReversed, reversedJoined, and_self]

end Crossing

/-- Over the rationals: a single point on a segment has a point in common with it, in either order
and in all directions, and a single point beyond its finish has none. -/
theorem Segment.meets_exact_rational :
    let path : Segment ℚ := ⟨⟨0, 0⟩, ⟨2, 4⟩⟩
    let inside : Segment ℚ := ⟨⟨1, 2⟩, ⟨1, 2⟩⟩
    let beyond : Segment ℚ := ⟨⟨3, 6⟩, ⟨3, 6⟩⟩
    IsStrictOrderedRing ℚ ∧ (path.points ∩ inside.points).Nonempty ∧
      ¬ (path.points ∩ beyond.points).Nonempty ∧
      ∀ tolerance : ℚ,
        inside.crosses (near tolerance) path = path.crosses (near tolerance) inside ∧
          path.reversed.crosses (near tolerance) inside = path.crosses (near tolerance) inside ∧
          path.crosses (near tolerance) inside.reversed =
            path.crosses (near tolerance) inside := by
  intro path inside beyond
  have meetsInside : path.meets inside = true := by decide +kernel
  have missesBeyond : path.meets beyond = false := by decide +kernel
  refine ⟨inferInstance, (meets_exact path inside).1.mp meetsInside, fun common => ?_,
    (meets_exact path inside).2⟩
  have meetsBeyond := (meets_exact path beyond).1.mpr common
  rw [missesBeyond] at meetsBeyond
  contradiction

end Geometry

end SpringArm
