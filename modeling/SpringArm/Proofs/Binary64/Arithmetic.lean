import SpringArm.Proofs.Binary64.Mantissa

/-!
# Arithmetic of doubles

Sums, differences and products of finite doubles are the exact results rounded, as long as these
are in range. A number drawn between two finite bounds lies between them, in whichever order the
bounds are, if their difference is in range.
-/

namespace SpringArm.Binary64

open Float.Model (Format UnpackedFloat totalExponent)
open Float.Model.UnpackedFloat

section Operations

theorem RoundsTo.self {number : UnpackedFloat} (wellFormed : WellFormed number)
    (finite : number.isFinite = true) : RoundsTo (value number) number :=
  ⟨wellFormed, finite, (rounded_of_onGrid (onGrid_value wellFormed)).symm⟩

theorem roundsTo_zero (sign : Sign) : RoundsTo 0 (.zero sign) :=
  .self (show WellFormed (.zero sign) from trivial) rfl

theorem finite_cases {number : UnpackedFloat} (finite : number.isFinite = true) :
    (∃ sign, number = .zero sign) ∨
      ∃ sign mantissa exponent positive, number = .finite sign mantissa exponent positive := by
  cases number with
  | notANumber => cases finite
  | infinity sign => cases finite
  | zero sign => exact .inl ⟨sign, rfl⟩
  | finite sign mantissa exponent positive => exact .inr ⟨sign, mantissa, exponent, positive, rfl⟩

/-- A mantissa with a sign, at a smaller exponent. -/
theorem aligned (sign : Sign) (mantissa : Nat) {exponent lower : Int} (below : lower ≤ exponent) :
    ((sign.apply (decreaseExponent mantissa exponent lower).1 : ℤ) * 2 ^ lower : ℚ) =
      signed sign (mantissa * 2 ^ exponent) := by
  have same := decreaseExponent_value mantissa exponent lower
  rw [decreaseExponent_exponent mantissa below] at same
  cases sign
  · rw [Sign.apply, signed, Int.cast_neg, Int.cast_natCast, neg_mul, same]
  · rw [Sign.apply, signed, Int.cast_natCast, same]

theorem signed_neg (sign : Sign) (magnitude : ℚ) :
    signed (-sign) magnitude = -signed sign magnitude := by
  cases sign
  · exact (neg_neg magnitude).symm
  · rfl

theorem signed_mul (sign other : Sign) (first second : ℚ) :
    signed (sign * other) (first * second) = signed sign first * signed other second := by
  cases sign <;> cases other
  · exact (neg_mul_neg first second).symm
  · exact (neg_mul first second).symm
  · exact (mul_neg first second).symm
  · rfl

theorem value_neg (number : UnpackedFloat) : value number.neg = -value number := by
  cases number with
  | finite sign mantissa exponent positive => exact signed_neg sign _
  | notANumber => exact neg_zero.symm
  | infinity sign => exact neg_zero.symm
  | zero sign => exact neg_zero.symm

variable {first second : UnpackedFloat}

/-- A sum is rounded. -/
theorem add_spec (wellFormed : WellFormed first) (otherWellFormed : WellFormed second)
    (finite : first.isFinite = true) (otherFinite : second.isFinite = true) :
    RoundsTo (value first + value second) (add Format.binary64 first second) := by
  obtain ⟨sign, rfl⟩ | ⟨sign, mantissa, exponent, positive, rfl⟩ := finite_cases finite <;>
    obtain ⟨otherSign, rfl⟩ | ⟨otherSign, other, otherExponent, more, rfl⟩ :=
      finite_cases otherFinite
  · rw [value_zero, value_zero, add_zero]
    cases sign <;> cases otherSign <;> exact roundsTo_zero _
  · rw [value_zero, zero_add]
    exact .self otherWellFormed rfl
  · rw [value_zero, add_zero]
    exact .self wellFormed rfl
  · rw [value, value, ← aligned sign mantissa (min_le_left exponent otherExponent),
      ← aligned otherSign other (min_le_right exponent otherExponent), ← add_mul, ← Int.cast_add]
    exact normalize_spec _ _ _

/-- A difference is rounded. -/
theorem sub_spec (wellFormed : WellFormed first) (otherWellFormed : WellFormed second)
    (finite : first.isFinite = true) (otherFinite : second.isFinite = true) :
    RoundsTo (value first - value second) (sub Format.binary64 first second) := by
  obtain ⟨sign, rfl⟩ | ⟨sign, mantissa, exponent, positive, rfl⟩ := finite_cases finite <;>
    obtain ⟨otherSign, rfl⟩ | ⟨otherSign, other, otherExponent, more, rfl⟩ :=
      finite_cases otherFinite
  · rw [value_zero, value_zero, sub_zero]
    cases sign <;> cases otherSign <;> exact roundsTo_zero _
  · rw [value_zero, zero_sub, ← value_neg]
    exact .self otherWellFormed rfl
  · rw [value_zero, sub_zero]
    exact .self wellFormed rfl
  · rw [value, value, ← aligned sign mantissa (min_le_left exponent otherExponent),
      ← aligned otherSign other (min_le_right exponent otherExponent), ← sub_mul, ← Int.cast_sub]
    exact normalize_spec _ _ _

/-- The product of canonical mantissas has no digits to spare. -/
theorem Canonical.mul_before {mantissa other : Nat} {exponent otherExponent : Int}
    (canonical : Canonical mantissa exponent) (otherCanonical : Canonical other otherExponent)
    (positive : 0 < mantissa) (more : 0 < other) :
    exponent + otherExponent ≤ target (mantissa * other) (exponent + otherExponent) := by
  have long : ∀ factor, 2 ^ 52 ≤ factor → factor ∣ mantissa * other →
      52 ≤ (mantissa * other).log2 := by
    intro factor full divides
    have product := Nat.mul_pos positive more
    exact (Nat.le_log2 product.ne').mpr (full.trans (Nat.le_of_dvd product divides))
  rw [target_eq]
  rcases canonical.full with last | full
  · rcases otherCanonical.full with otherLast | otherFull
    · omega
    · have := long other otherFull (Dvd.intro_left mantissa rfl)
      omega
  · have := long mantissa full (Dvd.intro other rfl)
    omega

/-- A product is rounded. -/
theorem mul_spec (wellFormed : WellFormed first) (otherWellFormed : WellFormed second)
    (finite : first.isFinite = true) (otherFinite : second.isFinite = true) :
    RoundsTo (value first * value second) (mul Format.binary64 first second) := by
  obtain ⟨sign, rfl⟩ | ⟨sign, mantissa, exponent, positive, rfl⟩ := finite_cases finite <;>
    obtain ⟨otherSign, rfl⟩ | ⟨otherSign, other, otherExponent, more, rfl⟩ :=
      finite_cases otherFinite
  · rw [value_zero, zero_mul]
    exact roundsTo_zero _
  · rw [value_zero, zero_mul]
    exact roundsTo_zero _
  · rw [value_zero, mul_zero]
    exact roundsTo_zero _
  · have rounds := roundWithAccuracy_spec (sign * otherSign) (represents_exact _)
      (Canonical.mul_before wellFormed otherWellFormed positive more)
    rw [zpow_add₀ two_ne_zero, Nat.cast_mul, mul_mul_mul_comm, signed_mul] at rounds
    exact rounds

/-- The accuracy of a fraction tells on which side of one half it lies. -/
theorem represents_fraction (whole : Nat) {remainder divisor : Nat} (below : remainder < divisor) :
    Represents (.ofMantissaAndAccuracy whole (accuracyOfFraction remainder divisor))
      (whole + remainder / divisor) := by
  have positive : (0 : ℚ) < divisor := Nat.cast_pos.mpr (Nat.zero_lt_of_lt below)
  have less : (remainder / divisor : ℚ) < 1 := by
    rw [div_lt_one positive]
    exact_mod_cast below
  have nonneg : (0 : ℚ) ≤ remainder / divisor := div_nonneg (Nat.cast_nonneg _) positive.le
  unfold accuracyOfFraction
  split
  next none =>
    rw [none, Nat.cast_zero, zero_div, add_zero]
    exact represents_exact whole
  next some =>
    have nonzero : (remainder / divisor : ℚ) ≠ 0 :=
      div_ne_zero (Nat.cast_ne_zero.mpr some) positive.ne'
    rcases lt_trichotomy (2 * remainder) divisor with under | half | beyond
    · have half : (remainder / divisor : ℚ) < 1 / 2 := by
        rw [div_lt_div_iff₀ positive two_pos, one_mul, mul_comm]
        exact_mod_cast under
      rw [compare_lt_iff_lt.mpr under]
      exact ⟨_, nonneg, half, iff_of_false Bool.noConfusion nonzero, by
        simp [ExtendedMantissa.ofMantissaAndAccuracy]⟩
    · have tie : (remainder / divisor : ℚ) = 1 / 2 := by
        rw [div_eq_div_iff positive.ne' two_ne_zero, one_mul, mul_comm]
        exact_mod_cast half
      rw [compare_eq_iff_eq.mpr half, tie]
      exact ⟨0, le_rfl, by norm_num, iff_of_true rfl rfl, by
        simp [ExtendedMantissa.ofMantissaAndAccuracy]⟩
    · have half : 1 / 2 < (remainder / divisor : ℚ) := by
        rw [div_lt_div_iff₀ two_pos positive, one_mul, mul_comm (remainder : ℚ)]
        exact_mod_cast beyond
      rw [compare_gt_iff_gt.mpr beyond]
      refine ⟨remainder / divisor - 1 / 2, by linarith, by linarith,
        iff_of_false Bool.noConfusion (by linarith), ?_⟩
      simp only [ExtendedMantissa.ofMantissaAndAccuracy, Bool.toNat_true, Nat.cast_one]
      ring

/-- A whole quotient and the accuracy of its remainder tell the quotient. -/
theorem represents_quotient (dividend : Nat) {divisor : Nat} (positive : 0 < divisor) :
    Represents (.ofMantissaAndAccuracy (dividend / divisor)
      (accuracyOfFraction (dividend % divisor) divisor)) (dividend / divisor : ℚ) := by
  have divisorPos : (divisor : ℚ) ≠ 0 := Nat.cast_ne_zero.mpr positive.ne'
  have split : (dividend / divisor : ℚ) =
      (dividend / divisor : ℕ) + (dividend % divisor : ℕ) / divisor := by
    have whole :
        (divisor * (dividend / divisor : ℕ) + (dividend % divisor : ℕ) : ℚ) = dividend := by
      exact_mod_cast Nat.div_add_mod dividend divisor
    rw [← whole, add_div, mul_div_cancel_left₀ _ divisorPos]
  rw [split]
  exact represents_fraction _ (Nat.mod_lt dividend positive)

section Quotient

variable {mantissa other : Nat} (exponent otherExponent : Int)

/-- How far the exponent of a quotient is decreased. -/
def quotientExponent (mantissa other : Nat) (exponent otherExponent : Int) : Int :=
  min (exponent - otherExponent) (Format.binary64.targetExponent
    (totalExponent mantissa exponent - totalExponent other otherExponent))

/-- A quotient has no digits to spare. -/
theorem quotient_before (positive : 0 < mantissa) (more : 0 < other) :
    let place := quotientExponent mantissa other exponent otherExponent
    place ≤ target
      ((mantissa <<< (exponent - otherExponent - place).toNat) / other) place := by
  intro place
  have least : place ≤ exponent - otherExponent := min_le_left _ _
  have most : place ≤ max (mantissa.log2 + 1 + exponent - (other.log2 + 1 + otherExponent) - 53)
      (-1074) := min_le_right _ _
  rw [target_eq]
  rcases le_or_gt place (-1074) with last | notLast
  · exact last.trans (le_max_right _ _)
  have digits : 53 + other.log2 ≤ mantissa.log2 + (exponent - otherExponent - place).toNat := by
    omega
  have full : 2 ^ 52 ≤ (mantissa <<< (exponent - otherExponent - place).toNat) / other := by
    rw [Nat.le_div_iff_mul_le more, Nat.shiftLeft_eq]
    calc 2 ^ 52 * other ≤ 2 ^ 52 * 2 ^ (other.log2 + 1) :=
          Nat.mul_le_mul_left _ Nat.lt_log2_self.le
      _ = 2 ^ (53 + other.log2) := by
          rw [← pow_add]
          congr 1
          omega
      _ ≤ 2 ^ (mantissa.log2 + (exponent - otherExponent - place).toNat) :=
          Nat.pow_le_pow_right two_pos digits
      _ ≤ mantissa * 2 ^ (exponent - otherExponent - place).toNat := by
          rw [pow_add]
          exact Nat.mul_le_mul_right _ (Nat.log2_self_le positive.ne')
  have nonzero := (Nat.two_pow_pos 52).trans_le full
  have leading := (Nat.le_log2 nonzero.ne').mpr full
  omega

theorem quotient_value :
    let place := quotientExponent mantissa other exponent otherExponent
    ((mantissa <<< (exponent - otherExponent - place).toNat : ℕ) / other * 2 ^ place : ℚ) =
      mantissa * 2 ^ exponent / (other * 2 ^ otherExponent) := by
  intro place
  have least : place ≤ exponent - otherExponent := min_le_left _ _
  have powers : (2 ^ (exponent - otherExponent - place).toNat * 2 ^ place : ℚ) =
      2 ^ exponent / 2 ^ otherExponent := by
    rw [← zpow_natCast, Int.toNat_of_nonneg (sub_nonneg.mpr least), ← zpow_add₀ two_ne_zero,
      sub_add_cancel, zpow_sub₀ two_ne_zero]
  rw [Nat.shiftLeft_eq, Nat.cast_mul, Nat.cast_pow, Nat.cast_ofNat, mul_div_right_comm, mul_assoc,
    powers, div_mul_div_comm]

end Quotient

theorem signed_div (sign other : Sign) (first second : ℚ) :
    signed (sign / other) (first / second) = signed sign first / signed other second := by
  cases sign <;> cases other
  · exact (neg_div_neg_eq first second).symm
  · exact (neg_div second first).symm
  · exact (div_neg first).symm
  · rfl

/-- A quotient is rounded, unless the divisor is zero. -/
theorem div_spec (finite : first.isFinite = true) (otherFinite : second.isFinite = true)
    (nonzero : value second ≠ 0) :
    RoundsTo (value first / value second) (div Format.binary64 first second) := by
  obtain ⟨otherSign, rfl⟩ | ⟨otherSign, other, otherExponent, more, rfl⟩ :=
    finite_cases otherFinite
  · exact absurd rfl nonzero
  obtain ⟨sign, rfl⟩ | ⟨sign, mantissa, exponent, positive, rfl⟩ := finite_cases finite
  · rw [value_zero, zero_div]
    exact roundsTo_zero _
  · have rounds := roundWithAccuracy_spec (sign / otherSign) (represents_quotient _ more)
      (quotient_before exponent otherExponent positive more)
    rw [quotient_value, signed_div] at rounds
    exact rounds

/-- A difference is finite only between finite numbers. -/
theorem isFinite_of_sub (differs : (sub Format.binary64 first second).isFinite = true) :
    first.isFinite = true ∧ second.isFinite = true := by
  cases first with
  | notANumber => cases differs
  | infinity sign =>
    cases second with
    | infinity other => cases sign <;> cases other <;> cases differs
    | _ => cases differs
  | zero sign =>
    cases second with
    | notANumber => cases differs
    | infinity other => cases differs
    | _ => exact ⟨rfl, rfl⟩
  | finite sign mantissa exponent positive =>
    cases second with
    | notANumber => cases differs
    | infinity other => cases differs
    | _ => exact ⟨rfl, rfl⟩

end Operations

section Doubles

/-- The rational that a finite double stands for. -/
def valueOf (number : Float) : ℚ :=
  value number.toModel.unpack

theorem onGrid_valueOf (number : Float) : OnGrid (valueOf number) :=
  onGrid_value (wellFormed_unpack _).1

theorem abs_valueOf_lt (number : Float) : |valueOf number| < limit :=
  (wellFormed_unpack _).2

/-- A double is an exact result rounded if this is in range, and otherwise not finite. -/
structure Computes (exact : ℚ) (result : Float) : Prop where
  isFinite_iff : result.isFinite = true ↔ |rounded exact| < limit
  valueOf_eq : result.isFinite = true → valueOf result = rounded exact

/-- Packing what an exact result is rounded to. -/
theorem RoundsTo.computes {exact : ℚ} {number : UnpackedFloat} (rounds : RoundsTo exact number) :
    Computes exact (.ofModel (.pack number)) := by
  rcases lt_or_ge |value number| limit with small | large
  · have same : (Float.Model.pack number).unpack = number :=
      unpack_pack rounds.wellFormed small
    constructor
    · rw [← rounds.value_eq]
      refine iff_of_true ?_ small
      change (Float.Model.pack number).unpack.isFinite = true
      rw [same]
      exact rounds.isFinite
    · intro _
      rw [valueOf, same, rounds.value_eq]
  · have infinite : (Float.ofModel (.pack number)).isFinite = false :=
      isFinite_unpack_pack rounds.wellFormed large
    constructor
    · rw [← rounds.value_eq, infinite]
      exact iff_of_false Bool.false_ne_true large.not_gt
    · intro finite
      rw [infinite] at finite
      cases finite

/-- What is not finite is not packed as a finite double. -/
theorem isFinite_of_pack {number : UnpackedFloat}
    (finite : (Float.ofModel (.pack number)).isFinite = true) : number.isFinite = true := by
  cases number with
  | zero sign => rfl
  | finite sign mantissa exponent positive => rfl
  | notANumber =>
    have packed : unpack Format.binary64 (packedNaN Format.binary64) = notANumber :=
      unpack_packedNaN
    exact (congrArg UnpackedFloat.isFinite packed).symm.trans finite
  | infinity sign =>
    exact (congrArg UnpackedFloat.isFinite (unpack_packedInfinity sign)).symm.trans finite

variable {first second : Float} (finite : first.isFinite = true)
  (otherFinite : second.isFinite = true)

include finite otherFinite

theorem computes_add : Computes (valueOf first + valueOf second) (first + second) :=
  (add_spec (wellFormed_unpack _).1 (wellFormed_unpack _).1 finite otherFinite).computes

theorem computes_sub : Computes (valueOf first - valueOf second) (first - second) :=
  (sub_spec (wellFormed_unpack _).1 (wellFormed_unpack _).1 finite otherFinite).computes

theorem computes_mul : Computes (valueOf first * valueOf second) (first * second) :=
  (mul_spec (wellFormed_unpack _).1 (wellFormed_unpack _).1 finite otherFinite).computes

theorem computes_div (nonzero : valueOf second ≠ 0) :
    Computes (valueOf first / valueOf second) (first / second) :=
  (div_spec finite otherFinite nonzero).computes

/-- Finite doubles are in the order of their values. -/
theorem le_iff_valueOf_le : first ≤ second ↔ valueOf first ≤ valueOf second := by
  rw [le_iff, UnpackedFloat.le, compare_eq finite otherFinite (wellFormed_unpack _).1
    (wellFormed_unpack _).1, Option.any_some, Ordering.isLE_iff_ne_gt]
  exact compare_le_iff_le

theorem lt_iff_valueOf_lt : first < second ↔ valueOf first < valueOf second := by
  rw [lt_iff, UnpackedFloat.lt, compare_eq finite otherFinite (wellFormed_unpack _).1
    (wellFormed_unpack _).1, beq_iff_eq, Option.some_inj]
  exact compare_lt_iff_lt

omit finite otherFinite

/-- What lies between finite doubles is finite. -/
theorem isFinite_of_between {low number high : Float} (lowFinite : low.isFinite = true)
    (highFinite : high.isFinite = true) (atLeast : low ≤ number) (atMost : number ≤ high) :
    number.isFinite = true := by
  change low.toModel.unpack.isFinite = true at lowFinite
  change high.toModel.unpack.isFinite = true at highFinite
  change number.toModel.unpack.isFinite = true
  rw [le_iff] at atLeast atMost
  cases unpacked : number.toModel.unpack with
  | zero sign => rfl
  | finite sign mantissa exponent positive => rfl
  | notANumber =>
    rw [unpacked] at atMost
    cases atMost
  | infinity sign =>
    rw [unpacked] at atLeast atMost
    cases sign with
    | positive =>
      obtain ⟨highSign, same⟩ | ⟨highSign, mantissa, exponent, positive, same⟩ :=
        finite_cases highFinite <;>
        · rw [same] at atMost
          cases atMost
    | negative =>
      obtain ⟨lowSign, same⟩ | ⟨lowSign, mantissa, exponent, positive, same⟩ :=
        finite_cases lowFinite <;>
        · rw [same] at atLeast
          cases lowSign <;> cases atLeast

theorem isFinite_of_isFinite_sub (differs : (first - second).isFinite = true) :
    first.isFinite = true ∧ second.isFinite = true :=
  isFinite_of_sub (isFinite_of_pack differs)

theorem value_abs (number : UnpackedFloat) : value number.abs = |value number| := by
  cases number with
  | finite sign mantissa exponent positive => exact (abs_value_finite sign exponent positive).symm
  | notANumber => exact abs_zero.symm
  | infinity sign => exact abs_zero.symm
  | zero sign => exact abs_zero.symm

theorem unpack_abs (number : Float) :
    number.abs.toModel.unpack = number.toModel.unpack.abs := by
  have keeps : ∀ {unpacked : UnpackedFloat}, WellFormed unpacked → WellFormed unpacked.abs := by
    intro unpacked wellFormed
    cases unpacked <;> exact wellFormed
  apply unpack_pack (keeps (wellFormed_unpack _).1)
  rw [value_abs, abs_abs]
  exact abs_valueOf_lt number

theorem valueOf_abs (number : Float) : valueOf number.abs = |valueOf number| := by
  rw [valueOf, unpack_abs, value_abs]
  rfl

theorem isFinite_abs (number : Float) : number.abs.isFinite = number.isFinite := by
  change number.abs.toModel.unpack.isFinite = number.toModel.unpack.isFinite
  rw [unpack_abs]
  cases number.toModel.unpack <;> rfl

theorem valueOf_zero : valueOf 0 = 0 :=
  rfl

theorem valueOf_one : valueOf 1 = 1 := by
  have unpacked : (1 : Float).toModel.unpack = .finite .positive (2 ^ 52) (-52) (by norm_num) := by
    rfl
  rw [valueOf, unpacked, value, signed]
  norm_num

/-- An exact result that is rounded between two finite doubles is in range. -/
theorem Computes.between {exact : ℚ} {result low high : Float} (computes : Computes exact result)
    (lowFinite : low.isFinite = true) (highFinite : high.isFinite = true)
    (atLeast : valueOf low ≤ rounded exact) (atMost : rounded exact ≤ valueOf high) :
    result.isFinite = true ∧ low ≤ result ∧ result ≤ high := by
  have finite : result.isFinite = true := by
    rw [computes.isFinite_iff, abs_lt]
    exact ⟨(abs_lt.mp (abs_valueOf_lt low)).1.trans_le atLeast,
      atMost.trans_lt (abs_lt.mp (abs_valueOf_lt high)).2⟩
  rw [le_iff_valueOf_le lowFinite finite, le_iff_valueOf_le finite highFinite,
    computes.valueOf_eq finite]
  exact ⟨finite, atLeast, atMost⟩

/-- An exact result that is not rounded beyond a double in magnitude is in range. -/
theorem Computes.isFinite_of_abs_le {exact : ℚ} {result : Float} (computes : Computes exact result)
    (bound : Float) (within : |rounded exact| ≤ |valueOf bound|) : result.isFinite = true :=
  computes.isFinite_iff.mpr (within.trans_lt (abs_valueOf_lt bound))

/-- An exact result between zero and what is rounded to at most a double is in range. -/
theorem Computes.isFinite_of_le {exact : ℚ} {result : Float} (computes : Computes exact result)
    (bound : Float) (nonneg : 0 ≤ exact) (atMost : rounded exact ≤ valueOf bound) :
    result.isFinite = true := by
  apply computes.isFinite_of_abs_le bound
  rw [abs_of_nonneg (le_rounded .zero nonneg)]
  exact atMost.trans (le_abs_self _)

/-- A double is a result that needs no rounding. -/
theorem Computes.exact_of_onGrid {exact : ℚ} {result : Float} (computes : Computes exact result)
    (onGrid : OnGrid exact) (small : |exact| < limit) :
    result.isFinite = true ∧ valueOf result = exact := by
  have same := rounded_of_onGrid onGrid
  have finite : result.isFinite = true := computes.isFinite_iff.mpr (by rwa [same])
  exact ⟨finite, (computes.valueOf_eq finite).trans same⟩

/-- A whole number of at most 53 binary digits is a double. -/
theorem valueOf_toFloat {number : Nat} (few : number < 2 ^ 53) :
    number.toFloat.isFinite = true ∧ valueOf number.toFloat = number := by
  have onGrid : OnGrid (number : ℚ) := by
    simpa using OnGrid.of_digits few (show (-1074 : ℤ) ≤ 0 by norm_num)
  have small : |(number : ℚ)| < limit := by
    have fewRational : (number : ℚ) < 2 ^ (53 : ℤ) := by exact_mod_cast few
    rw [Nat.abs_cast]
    exact fewRational.trans_le (zpow_le_zpow_right₀ one_le_two (by norm_num))
  have bits : number.toUInt64.toNat = number := UInt64.toNat_ofNat_of_lt' (few.trans (by decide))
  have word : Computes number number.toUInt64.toFloat := by
    have rounds := normalize_spec (number.toUInt64.toNat : ℤ) 0 .positive
    rw [zpow_zero, mul_one, Int.cast_natCast] at rounds
    have computes : Computes number.toUInt64.toNat number.toUInt64.toFloat := rounds.computes
    rwa [bits] at computes
  obtain ⟨wordFinite, wordValue⟩ := word.exact_of_onGrid onGrid small
  have one : number.toFloat = number.toUInt64.toFloat * 1 := by
    change Float.ofScientific number false 0 = _
    rw [Float.ofScientific, dif_pos ⟨few, by norm_num⟩]
    rfl
  have product := computes_mul wordFinite (show (1 : Float).isFinite = true from rfl)
  rw [wordValue, valueOf_one, mul_one, ← one] at product
  exact product.exact_of_onGrid onGrid small

end Doubles

section Draws

theorem le_of_lt {first second : Float} (below : first < second) : first ≤ second := by
  rw [lt_iff, UnpackedFloat.lt, beq_iff_eq] at below
  rw [le_iff, UnpackedFloat.le, below]
  rfl

/-- A number is at least zero and below one. -/
structure InUnit (number : Float) : Prop where
  nonneg : 0 ≤ number
  lt_one : number < 1

instance (number : Float) : Decidable (InUnit number) :=
  decidable_of_iff (0 ≤ number ∧ number < 1)
    ⟨fun ⟨nonneg, lt_one⟩ => ⟨nonneg, lt_one⟩, fun inUnit => ⟨inUnit.nonneg, inUnit.lt_one⟩⟩

namespace InUnit

variable {number : Float} (inUnit : InUnit number)

include inUnit

theorem isFinite : number.isFinite = true :=
  isFinite_of_between rfl rfl inUnit.nonneg (le_of_lt inUnit.lt_one)

theorem valueOf_nonneg : 0 ≤ valueOf number :=
  (le_iff_valueOf_le rfl inUnit.isFinite).mp inUnit.nonneg

theorem valueOf_lt_one : valueOf number < 1 := by
  rw [← valueOf_one]
  exact (lt_iff_valueOf_lt inUnit.isFinite rfl).mp inUnit.lt_one

end InUnit

variable {unit low high : Float}

/-- A number drawn between bounds whose difference is in range is finite and lies between them,
whichever of them is the larger one. -/
theorem draw_spec (inUnit : InUnit unit) (wide : (high - low).isFinite = true) :
    (unit * (high - low) + low).isFinite = true ∧
      (low ≤ high → low ≤ unit * (high - low) + low ∧ unit * (high - low) + low ≤ high) ∧
      (high ≤ low → high ≤ unit * (high - low) + low ∧ unit * (high - low) + low ≤ low) := by
  obtain ⟨highFinite, lowFinite⟩ := isFinite_of_isFinite_sub wide
  have width := (computes_sub highFinite lowFinite).valueOf_eq wide
  have product := computes_mul inUnit.isFinite wide
  have shareFinite : (unit * (high - low)).isFinite = true := by
    rw [product.isFinite_iff]
    refine (abs_rounded_le (onGrid_valueOf _) ?_).trans_lt (abs_valueOf_lt (high - low))
    rw [abs_mul, abs_of_nonneg inUnit.valueOf_nonneg]
    exact mul_le_of_le_one_left (abs_nonneg _) inUnit.valueOf_lt_one.le
  have sum := computes_add shareFinite lowFinite
  rw [product.valueOf_eq shareFinite, width] at sum
  have ordered := fun order : valueOf low ≤ valueOf high =>
    draw_between (onGrid_valueOf unit) inUnit.valueOf_nonneg inUnit.valueOf_lt_one
      (onGrid_valueOf low) (onGrid_valueOf high) order
  have exchanged := fun order : valueOf high ≤ valueOf low =>
    draw_between_exchanged (onGrid_valueOf unit) inUnit.valueOf_nonneg inUnit.valueOf_lt_one
      (onGrid_valueOf low) (onGrid_valueOf high) order
  refine ⟨?_, fun order => ?_, fun order => ?_⟩
  · rcases le_total (valueOf low) (valueOf high) with order | order
    · exact (sum.between lowFinite highFinite (ordered order).1 (ordered order).2).1
    · exact (sum.between highFinite lowFinite (exchanged order).1 (exchanged order).2).1
  · rw [le_iff_valueOf_le lowFinite highFinite] at order
    exact (sum.between lowFinite highFinite (ordered order).1 (ordered order).2).2
  · rw [le_iff_valueOf_le highFinite lowFinite] at order
    exact (sum.between highFinite lowFinite (exchanged order).1 (exchanged order).2).2

end Draws

end SpringArm.Binary64
