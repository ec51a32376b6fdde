import Mathlib

/-!
# Rounding to doubles

The doubles are the rationals with at most 53 binary digits, none of them behind the 1074th binary
place. Rounding takes the nearest one, and the one with an even last digit where two are equally
near. The order is kept, and so is a draw between two doubles: a share of a rounded difference never
comes out beyond the difference itself.

There is no largest double here; the range of the doubles is a matter of their packing.
-/

namespace SpringArm.Binary64

/-- The nearest whole number, and the even one of two that are equally near. -/
def nearestEven (exact : ℚ) : ℤ :=
  if Int.fract exact < 1 / 2 then ⌊exact⌋
  else if 1 / 2 < Int.fract exact then ⌊exact⌋ + 1
  else ⌊exact⌋ + ⌊exact⌋ % 2

theorem abs_sub_nearestEven_le (exact : ℚ) : |exact - nearestEven exact| ≤ 1 / 2 := by
  have whole := Int.floor_add_fract exact
  have below := Int.fract_nonneg exact
  have above := Int.fract_lt_one exact
  rw [abs_le, nearestEven]
  split_ifs with under beyond
  · constructor <;> linarith
  · push_cast
    constructor <;> linarith
  · have half : Int.fract exact = 1 / 2 := by linarith
    rcases Int.emod_two_eq_zero_or_one ⌊exact⌋ with even | odd
    · rw [even]
      push_cast
      constructor <;> linarith
    · rw [odd]
      push_cast
      constructor <;> linarith

/-- No whole number is nearer. -/
theorem nearestEven_nearest (exact : ℚ) (other : ℤ) :
    |exact - nearestEven exact| ≤ |exact - other| := by
  rcases eq_or_ne (nearestEven exact) other with same | different
  · rw [same]
  · have apart : (1 : ℚ) ≤ |(nearestEven exact : ℚ) - other| := by
      exact_mod_cast Int.one_le_abs (sub_ne_zero.mpr different)
    have triangle := abs_sub_le (nearestEven exact : ℚ) exact other
    rw [abs_sub_comm (nearestEven exact : ℚ) exact] at triangle
    have near := abs_sub_nearestEven_le exact
    linarith

theorem even_nearestEven {exact : ℚ} (tie : |exact - nearestEven exact| = 1 / 2) :
    Even (nearestEven exact) := by
  have whole := Int.floor_add_fract exact
  have below := Int.fract_nonneg exact
  have above := Int.fract_lt_one exact
  revert tie
  unfold nearestEven
  split_ifs with under beyond
  · intro tie
    rw [abs_of_nonneg (by linarith)] at tie
    linarith
  · intro tie
    push_cast at tie
    rw [abs_of_nonpos (by linarith)] at tie
    linarith
  · intro _
    rw [Int.even_iff]
    omega

/-- A whole number within one half is the nearest one if a tie is broken to it. -/
theorem nearestEven_eq {exact : ℚ} {whole : ℤ} (near : |exact - whole| ≤ 1 / 2)
    (even : |exact - whole| = 1 / 2 → Even whole) : nearestEven exact = whole := by
  by_contra different
  have apart : (1 : ℚ) ≤ |(nearestEven exact : ℚ) - whole| := by
    exact_mod_cast Int.one_le_abs (sub_ne_zero.mpr different)
  have triangle := abs_sub_le (nearestEven exact : ℚ) exact whole
  rw [abs_sub_comm (nearestEven exact : ℚ) exact] at triangle
  have nearest := abs_sub_nearestEven_le exact
  have bothEven : Even (nearestEven exact - whole) :=
    (even_nearestEven (by linarith)).sub (even (by linarith))
  -- two even numbers are not one apart
  have one : |nearestEven exact - whole| = 1 := by
    have : |(nearestEven exact : ℚ) - whole| = 1 := by linarith
    exact_mod_cast this
  rw [← even_abs, one] at bothEven
  exact absurd bothEven (by decide)

theorem nearestEven_neg (exact : ℚ) : nearestEven (-exact) = -nearestEven exact := by
  have mirrored : -exact - ((-nearestEven exact : ℤ) : ℚ) = -(exact - nearestEven exact) := by
    push_cast
    ring
  apply nearestEven_eq
  · rw [mirrored, abs_neg]
    exact abs_sub_nearestEven_le exact
  · rw [mirrored, abs_neg]
    exact fun tie => (even_nearestEven tie).neg

/-- The binary place of the last digit that is kept of a number. -/
def lastPlace (exact : ℚ) : ℤ :=
  max (Int.log 2 |exact| - 52) (-1074)

/-- The nearest double. -/
def rounded (exact : ℚ) : ℚ :=
  nearestEven (exact / 2 ^ lastPlace exact) * 2 ^ lastPlace exact

/-- A number has at most 53 binary digits and none behind the 1074th binary place. -/
def OnGrid (value : ℚ) : Prop :=
  ∃ (digits place : ℤ), -1074 ≤ place ∧ |digits| ≤ 2 ^ 53 ∧ value = digits * 2 ^ place

theorem two_zpow_pos (place : ℤ) : (0 : ℚ) < 2 ^ place :=
  zpow_pos two_pos place

/-- The last place belongs to the leading digit, or is the last of all. -/
theorem lastPlace_eq {exact : ℚ} {place : ℤ} (nonzero : exact ≠ 0) (last : -1074 ≤ place)
    (below : |exact| < 2 ^ (place + 53)) (above : place = -1074 ∨ 2 ^ (place + 52) ≤ |exact|) :
    lastPlace exact = place := by
  have positive := abs_pos.mpr nonzero
  have under : Int.log 2 |exact| < place + 53 :=
    (Int.lt_zpow_iff_log_lt one_lt_two positive).mp (by exact_mod_cast below)
  rcases above with rfl | above
  · rw [lastPlace]
    omega
  · have reached : place + 52 ≤ Int.log 2 |exact| :=
      (Int.zpow_le_iff_le_log one_lt_two positive).mp (by exact_mod_cast above)
    rw [lastPlace]
    omega

theorem last_le_lastPlace (exact : ℚ) : -1074 ≤ lastPlace exact :=
  le_max_right _ _

theorem abs_lt_lastPlace (exact : ℚ) : |exact| < 2 ^ (lastPlace exact + 53) := by
  have leading : |exact| < 2 ^ (Int.log 2 |exact| + 1) := by
    exact_mod_cast Int.lt_zpow_succ_log_self one_lt_two |exact|
  refine leading.trans_le (zpow_le_zpow_right₀ one_le_two ?_)
  rw [lastPlace]
  omega

theorem lastPlace_le_abs {exact : ℚ} (nonzero : exact ≠ 0) (before : lastPlace exact ≠ -1074) :
    2 ^ (lastPlace exact + 52) ≤ |exact| := by
  have leading : 2 ^ Int.log 2 |exact| ≤ |exact| := by
    exact_mod_cast Int.zpow_log_le_self one_lt_two (abs_pos.mpr nonzero)
  rw [lastPlace] at before ⊢
  rwa [max_eq_left (by omega), sub_add_cancel]

/-- Rounding at the last place of a number. -/
theorem rounded_eq {exact : ℚ} {digits place : ℤ} (last : -1074 ≤ place)
    (below : |exact| < 2 ^ (place + 53)) (above : place = -1074 ∨ 2 ^ (place + 52) ≤ |exact|)
    (nearest : nearestEven (exact / 2 ^ place) = digits) :
    rounded exact = digits * 2 ^ place := by
  rcases eq_or_ne exact 0 with rfl | nonzero
  · have zero : nearestEven 0 = 0 := by decide +kernel
    rw [zero_div, zero] at nearest
    rw [rounded, zero_div, zero, ← nearest, Int.cast_zero, zero_mul, zero_mul]
  · rw [rounded, lastPlace_eq nonzero last below above, nearest]

theorem rounded_neg (exact : ℚ) : rounded (-exact) = -rounded exact := by
  have place : lastPlace (-exact) = lastPlace exact := by rw [lastPlace, lastPlace, abs_neg]
  rw [rounded, rounded, place, neg_div, nearestEven_neg, Int.cast_neg, neg_mul]

namespace OnGrid

theorem zero : OnGrid 0 :=
  ⟨0, 0, by norm_num, by norm_num, by norm_num⟩

/-- A magnitude of at most 53 binary digits. -/
theorem of_digits {digits : ℕ} {place : ℤ} (few : digits < 2 ^ 53) (last : -1074 ≤ place) :
    OnGrid (digits * 2 ^ place) := by
  refine ⟨digits, place, last, ?_, by rw [Int.cast_natCast]⟩
  rw [Nat.abs_cast]
  exact_mod_cast few.le

theorem neg {value : ℚ} (onGrid : OnGrid value) : OnGrid (-value) := by
  obtain ⟨digits, place, last, few, rfl⟩ := onGrid
  exact ⟨-digits, place, last, by rwa [abs_neg], by push_cast; ring⟩

/-- A multiple of a place is a multiple of every place behind it. -/
theorem multiple_of_le (digits : ℤ) {place behind : ℤ} (order : behind ≤ place) :
    ∃ more : ℤ, (digits * 2 ^ place : ℚ) = more * 2 ^ behind := by
  obtain ⟨gap, split⟩ := Int.eq_ofNat_of_zero_le (show 0 ≤ place - behind by omega)
  refine ⟨digits * 2 ^ gap, ?_⟩
  rw [show place = gap + behind by omega, zpow_add₀ two_ne_zero, zpow_natCast]
  push_cast
  ring

/-- Every double is a multiple of the last binary place. -/
theorem multiple {value : ℚ} (onGrid : OnGrid value) :
    ∃ digits : ℤ, value = digits * 2 ^ (-1074 : ℤ) := by
  obtain ⟨digits, place, last, -, rfl⟩ := onGrid
  exact multiple_of_le digits last

/-- A double is a multiple of a place or too small to have its leading digit 53 places before. -/
theorem multiple_or_small {value : ℚ} (onGrid : OnGrid value) (place : ℤ) :
    (∃ digits : ℤ, value = digits * 2 ^ place) ∨ |value| ≤ 2 ^ (place + 52) := by
  obtain ⟨digits, ownPlace, -, few, rfl⟩ := onGrid
  rcases le_or_gt place ownPlace with before | behind
  · exact .inl (multiple_of_le digits before)
  · right
    have fewRational : (|digits| : ℚ) ≤ 2 ^ (53 : ℤ) := by exact_mod_cast few
    calc |(digits : ℚ) * 2 ^ ownPlace| = |(digits : ℚ)| * 2 ^ ownPlace := by
          rw [abs_mul, abs_of_pos (two_zpow_pos ownPlace)]
      _ ≤ 2 ^ (53 : ℤ) * 2 ^ ownPlace :=
          mul_le_mul_of_nonneg_right fewRational (two_zpow_pos ownPlace).le
      _ = 2 ^ (53 + ownPlace) := (zpow_add₀ two_ne_zero _ _).symm
      _ ≤ 2 ^ (place + 52) := zpow_le_zpow_right₀ one_le_two (by omega)

/-- Below one, the largest double is short of it by one at the 53rd binary place. -/
theorem le_of_lt_one {value : ℚ} (onGrid : OnGrid value) (below : value < 1) :
    value ≤ 1 - 2 ^ (-53 : ℤ) := by
  rcases onGrid.multiple_or_small (-53) with ⟨digits, rfl⟩ | small
  · rw [zpow_neg, ← div_eq_mul_inv, div_lt_one (two_zpow_pos 53)] at below
    have fewer : digits < 2 ^ 53 := by exact_mod_cast below
    have atMost : (digits : ℚ) ≤ 2 ^ (53 : ℤ) - 1 := by
      have : digits ≤ 2 ^ 53 - 1 := by omega
      exact_mod_cast this
    rw [zpow_neg, ← div_eq_mul_inv, div_le_iff₀ (two_zpow_pos 53), sub_mul,
      inv_mul_cancel₀ (two_zpow_pos 53).ne', one_mul]
    exact atMost
  · refine ((le_abs_self value).trans small).trans ?_
    norm_num

/-- Between the powers of two before and behind it, the next smaller double is one at the last place
away. -/
theorem exists_predecessor {value : ℚ} (onGrid : OnGrid value)
    (large : 2 ^ (-1074 + 53 : ℤ) < value) :
    ∃ place : ℤ, 2 ^ (place + 52) < value ∧ OnGrid (value - 2 ^ place) := by
  obtain ⟨power, above, atMost⟩ :=
    exists_mem_Ioc_zpow ((two_zpow_pos _).trans large) (one_lt_two (α := ℚ))
  obtain ⟨place, rfl⟩ : ∃ place, power = place + 52 := ⟨power - 52, by ring⟩
  refine ⟨place, above, ?_⟩
  have last : -1074 ≤ place := by
    have := (zpow_lt_zpow_iff_right₀ one_lt_two).mp (large.trans_le atMost)
    omega
  rcases onGrid.multiple_or_small place with ⟨digits, rfl⟩ | small
  · have split : (2 : ℚ) ^ (place + 52 + 1) = 2 ^ 53 * 2 ^ place := by
      rw [show place + 52 + 1 = ((53 : ℕ) : ℤ) + place by push_cast; ring,
        zpow_add₀ two_ne_zero, zpow_natCast]
    rw [split] at atMost
    have few : digits ≤ 2 ^ 53 := by
      exact_mod_cast le_of_mul_le_mul_right atMost (two_zpow_pos place)
    have positive : 0 < digits := by
      have := pos_of_mul_pos_left ((two_zpow_pos _).trans above) (two_zpow_pos place).le
      exact_mod_cast this
    refine ⟨digits - 1, place, last, ?_, by push_cast; ring⟩
    rw [abs_of_nonneg (by omega)]
    omega
  · exact absurd above (not_lt.mpr ((le_abs_self value).trans small))

end OnGrid

/-- The nearest double is a double. -/
theorem onGrid_rounded (exact : ℚ) : OnGrid (rounded exact) := by
  refine ⟨_, _, last_le_lastPlace exact, ?_, rfl⟩
  have near := abs_sub_nearestEven_le (exact / 2 ^ lastPlace exact)
  have below : |exact / 2 ^ lastPlace exact| < 2 ^ (53 : ℤ) := by
    rw [abs_div, abs_of_pos (two_zpow_pos _), div_lt_iff₀ (two_zpow_pos _),
      ← zpow_add₀ two_ne_zero, add_comm]
    exact abs_lt_lastPlace exact
  have triangle := abs_sub_abs_le_abs_sub
    (nearestEven (exact / 2 ^ lastPlace exact) : ℚ) (exact / 2 ^ lastPlace exact)
  rw [abs_sub_comm] at triangle
  have under : (|nearestEven (exact / 2 ^ lastPlace exact)| : ℚ) < 2 ^ (53 : ℤ) + 1 := by
    linarith
  have : |nearestEven (exact / 2 ^ lastPlace exact)| < 2 ^ 53 + 1 := by exact_mod_cast under
  omega

/-- Among the multiples of a place the rounded quotient is nearest. -/
theorem nearestEven_mul_nearest (exact : ℚ) (place other : ℤ) :
    |exact - nearestEven (exact / 2 ^ place) * 2 ^ place| ≤ |exact - other * 2 ^ place| := by
  have positive := two_zpow_pos place
  have scaled : ∀ whole : ℤ,
      |exact - whole * 2 ^ place| = |exact / 2 ^ place - whole| * 2 ^ place := by
    intro whole
    rw [← abs_of_pos positive, ← abs_mul, abs_of_pos positive, sub_mul,
      div_mul_cancel₀ _ positive.ne']
  rw [scaled, scaled]
  exact mul_le_mul_of_nonneg_right (nearestEven_nearest _ other) positive.le

/-- No double is nearer to a number than the rounded one. -/
theorem rounded_nearest (exact : ℚ) {other : ℚ} (onGrid : OnGrid other) :
    |exact - rounded exact| ≤ |exact - other| := by
  rcases eq_or_ne exact 0 with rfl | nonzero
  · have zero := nearestEven_mul_nearest 0 (lastPlace 0) 0
    rw [Int.cast_zero, zero_mul, sub_zero, abs_zero] at zero
    exact zero.trans (abs_nonneg _)
  by_cases atEnd : lastPlace exact = -1074
  · obtain ⟨digits, rfl⟩ := onGrid.multiple
    rw [rounded, atEnd]
    exact nearestEven_mul_nearest exact (-1074) digits
  rcases onGrid.multiple_or_small (lastPlace exact) with ⟨digits, rfl⟩ | small
  · exact nearestEven_mul_nearest exact (lastPlace exact) digits
  -- a smaller double is beyond the power of two that the number has passed
  · have passed := lastPlace_le_abs nonzero atEnd
    have reaches : ∀ sign : ℤ, |exact - rounded exact| ≤
        |exact - sign * 2 ^ (lastPlace exact + 52)| := by
      intro sign
      have nearest := nearestEven_mul_nearest exact (lastPlace exact) (sign * 2 ^ 52)
      rwa [Int.cast_mul, mul_assoc, show (((2 ^ 52 : ℤ) : ℚ) * 2 ^ lastPlace exact) =
        2 ^ (lastPlace exact + 52) by
          rw [zpow_add₀ two_ne_zero, mul_comm]; norm_num] at nearest
    rw [abs_le] at small
    rcases le_total 0 exact with upright | mirrored
    · rw [abs_of_nonneg upright] at passed
      refine (reaches 1).trans ?_
      rw [Int.cast_one, one_mul, abs_of_nonneg (by linarith), abs_of_nonneg (by linarith)]
      linarith
    · rw [abs_of_nonpos mirrored] at passed
      refine (reaches (-1)).trans ?_
      rw [Int.cast_neg, Int.cast_one, neg_one_mul, abs_of_nonpos (by linarith),
        abs_of_nonpos (by linarith)]
      linarith

theorem rounded_of_onGrid {value : ℚ} (onGrid : OnGrid value) : rounded value = value := by
  have nearest := rounded_nearest value onGrid
  rw [sub_self, abs_zero, abs_nonpos_iff, sub_eq_zero] at nearest
  exact nearest.symm

/-- A number at most a double is rounded to at most that double. -/
theorem rounded_le {exact bound : ℚ} (onGrid : OnGrid bound) (atMost : exact ≤ bound) :
    rounded exact ≤ bound := by
  by_contra! beyond
  have nearest := rounded_nearest exact onGrid
  rw [abs_of_nonpos (by linarith), abs_of_nonpos (by linarith)] at nearest
  linarith

/-- A number at least a double is rounded to at least that double. -/
theorem le_rounded {exact bound : ℚ} (onGrid : OnGrid bound) (atLeast : bound ≤ exact) :
    bound ≤ rounded exact := by
  have mirrored := rounded_le onGrid.neg (neg_le_neg atLeast)
  rw [rounded_neg] at mirrored
  exact neg_le_neg_iff.mp mirrored

/-- A number is not rounded beyond a double in magnitude. -/
theorem abs_rounded_le {exact bound : ℚ} (onGrid : OnGrid bound) (within : |exact| ≤ |bound|) :
    |rounded exact| ≤ |bound| := by
  obtain ⟨atLeast, atMost⟩ := abs_le.mp within
  have magnitude : OnGrid |bound| := by
    rcases abs_choice bound with same | mirrored
    · rwa [same]
    · rw [mirrored]
      exact onGrid.neg
  exact abs_le.mpr ⟨le_rounded magnitude.neg atLeast, rounded_le magnitude atMost⟩

/-- Rounding keeps the order. -/
theorem rounded_mono {lower upper : ℚ} (ordered : lower ≤ upper) :
    rounded lower ≤ rounded upper := by
  rcases ordered.eq_or_lt with rfl | strictly
  · exact le_rfl
  by_contra! exchanged
  have lowerNearest := rounded_nearest lower (onGrid_rounded upper)
  have upperNearest := rounded_nearest upper (onGrid_rounded lower)
  rcases abs_cases (lower - rounded lower) with ⟨first, _⟩ | ⟨first, _⟩ <;>
    rcases abs_cases (lower - rounded upper) with ⟨second, _⟩ | ⟨second, _⟩ <;>
    rcases abs_cases (upper - rounded lower) with ⟨third, _⟩ | ⟨third, _⟩ <;>
    rcases abs_cases (upper - rounded upper) with ⟨fourth, _⟩ | ⟨fourth, _⟩ <;>
    linarith

/-- A share of a rounded difference of doubles is rounded to at most the difference itself. -/
theorem rounded_share_le {unit difference : ℚ} (onGrid : OnGrid unit) (below : unit < 1)
    (nonneg : 0 ≤ difference)
    (multiple : ∃ digits : ℤ, difference = digits * 2 ^ (-1074 : ℤ)) :
    rounded (unit * rounded difference) ≤ difference := by
  by_contra! beyond
  have width := le_rounded OnGrid.zero nonneg
  have atMost : rounded (unit * rounded difference) ≤ rounded difference :=
    rounded_le (onGrid_rounded _) (mul_le_of_le_one_left width below.le)
  -- the share is rounded to a double that is at least as near to the difference as the width is
  have same : rounded (unit * rounded difference) = rounded difference := by
    have nearest := rounded_nearest difference (onGrid_rounded (unit * rounded difference))
    rw [abs_of_nonpos (by linarith), abs_of_nonpos (by linarith)] at nearest
    linarith
  have large : 2 ^ (-1074 + 53 : ℤ) < rounded difference := by
    by_contra! small
    obtain ⟨digits, rfl⟩ := multiple
    have few : |digits| ≤ 2 ^ 53 := by
      have shorter := (beyond.le.trans atMost).trans small
      rw [add_comm, zpow_add₀ two_ne_zero] at shorter
      have bounded : digits ≤ 2 ^ 53 := by
        exact_mod_cast le_of_mul_le_mul_right shorter (two_zpow_pos _)
      have upright : 0 ≤ digits := by
        exact_mod_cast nonneg_of_mul_nonneg_left nonneg (two_zpow_pos _)
      rwa [abs_of_nonneg upright]
    rw [rounded_of_onGrid ⟨digits, -1074, le_rfl, few, rfl⟩] at same beyond
    linarith
  obtain ⟨place, leading, preceding⟩ := (onGrid_rounded difference).exists_predecessor large
  -- below one a share falls short of the width by more than half the way to the double before it
  have short : unit * rounded difference < rounded difference - 2 ^ place / 2 := by
    have factor := mul_le_mul_of_nonneg_right (onGrid.le_of_lt_one below) width
    have half : (2 : ℚ) ^ place / 2 = 2 ^ (-53 : ℤ) * 2 ^ (place + 52) := by
      rw [← zpow_add₀ two_ne_zero, show -53 + (place + 52) = place - 1 by ring,
        zpow_sub_one₀ two_ne_zero]
      ring
    rw [sub_mul, one_mul] at factor
    rw [half]
    exact factor.trans_lt (sub_lt_sub_left (mul_lt_mul_of_pos_left leading (two_zpow_pos (-53))) _)
  have nearest := rounded_nearest (unit * rounded difference) preceding
  rw [same, abs_of_neg (by linarith [two_zpow_pos place])] at nearest
  rcases abs_cases (unit * rounded difference - (rounded difference - 2 ^ place)) with
    ⟨distance, _⟩ | ⟨distance, _⟩ <;>
    linarith [two_zpow_pos place]

/-- A number drawn between two doubles lies between them. -/
theorem draw_between {unit low high : ℚ} (unitOnGrid : OnGrid unit) (nonneg : 0 ≤ unit)
    (below : unit < 1) (lowOnGrid : OnGrid low) (highOnGrid : OnGrid high)
    (ordered : low ≤ high) :
    low ≤ rounded (rounded (unit * rounded (high - low)) + low) ∧
      rounded (rounded (unit * rounded (high - low)) + low) ≤ high := by
  obtain ⟨lowDigits, lowMultiple⟩ := lowOnGrid.multiple
  obtain ⟨highDigits, highMultiple⟩ := highOnGrid.multiple
  have positive : 0 ≤ high - low := sub_nonneg.mpr ordered
  have share : 0 ≤ rounded (unit * rounded (high - low)) :=
    le_rounded OnGrid.zero (mul_nonneg nonneg (le_rounded OnGrid.zero positive))
  have atMost := rounded_share_le unitOnGrid below positive
    ⟨highDigits - lowDigits, by rw [lowMultiple, highMultiple, Int.cast_sub, sub_mul]⟩
  exact ⟨le_rounded lowOnGrid (by linarith), rounded_le highOnGrid (by linarith)⟩

/-- Also where the bounds are exchanged. -/
theorem draw_between_exchanged {unit low high : ℚ} (unitOnGrid : OnGrid unit) (nonneg : 0 ≤ unit)
    (below : unit < 1) (lowOnGrid : OnGrid low) (highOnGrid : OnGrid high)
    (exchanged : high ≤ low) :
    high ≤ rounded (rounded (unit * rounded (high - low)) + low) ∧
      rounded (rounded (unit * rounded (high - low)) + low) ≤ low := by
  have mirrored := draw_between unitOnGrid nonneg below lowOnGrid.neg highOnGrid.neg
    (neg_le_neg exchanged)
  rw [← neg_sub', rounded_neg, mul_neg, rounded_neg, ← neg_add, rounded_neg] at mirrored
  exact ⟨neg_le_neg_iff.mp mirrored.2, neg_le_neg_iff.mp mirrored.1⟩

end SpringArm.Binary64
