import SpringArm.Proofs.Binary64.Value

/-!
# Mantissas

A mantissa is rounded by shifting its last digits out; an extended mantissa keeps of these what
rounding needs. The result is the nearest double, whatever digits there were.
-/

namespace SpringArm.Binary64

open Float.Model (Format UnpackedFloat totalExponent)
open Float.Model.UnpackedFloat

section Mantissas

/-- An extended mantissa tells a number up to a rest behind the round bit, and whether there is
one. -/
def Represents (extended : ExtendedMantissa) (exact : ℚ) : Prop :=
  ∃ rest : ℚ, 0 ≤ rest ∧ rest < 1 / 2 ∧ (extended.stickyBit = false ↔ rest = 0) ∧
    exact = extended.mantissa + extended.roundBit.toNat / 2 + rest

theorem represents_exact (mantissa : Nat) :
    Represents (.ofMantissaAndAccuracy mantissa .exact) mantissa :=
  ⟨0, le_rfl, by norm_num, by simp [ExtendedMantissa.ofMantissaAndAccuracy],
    by simp [ExtendedMantissa.ofMantissaAndAccuracy]⟩

theorem ofMantissaAndAccuracy_mantissa (mantissa : Nat) (accuracy : Accuracy) :
    (ExtendedMantissa.ofMantissaAndAccuracy mantissa accuracy).mantissa = mantissa := by
  cases accuracy with
  | exact => rfl
  | inexact ordering => cases ordering <;> rfl

/-- An extended mantissa tells a number between its mantissa and the next one. -/
theorem Represents.between {extended : ExtendedMantissa} {exact : ℚ}
    (represents : Represents extended exact) :
    (extended.mantissa : ℚ) ≤ exact ∧ exact < extended.mantissa + 1 := by
  obtain ⟨rest, nonneg, below, -, rfl⟩ := represents
  have bit : (extended.roundBit.toNat : ℚ) ≤ 1 := by
    exact_mod_cast Bool.toNat_le extended.roundBit
  have bitNonneg : (0 : ℚ) ≤ extended.roundBit.toNat := Nat.cast_nonneg _
  constructor <;> linarith

theorem Represents.shiftRightOne {extended : ExtendedMantissa} {exact : ℚ}
    (represents : Represents extended exact) : Represents extended.shiftRightOne (exact / 2) := by
  obtain ⟨mantissa, roundBit, stickyBit⟩ := extended
  obtain ⟨rest, nonneg, below, sticky, rfl⟩ := represents
  have bit : (roundBit.toNat : ℚ) ≤ 1 := by exact_mod_cast Bool.toNat_le roundBit
  have bitNonneg : (0 : ℚ) ≤ roundBit.toNat := Nat.cast_nonneg _
  refine ⟨roundBit.toNat / 4 + rest / 2, by linarith, by linarith, ?_, ?_⟩
  · cases roundBit
    · simpa [ExtendedMantissa.shiftRightOne] using sticky
    · have positive : 1 / 4 + rest / 2 ≠ 0 := by linarith
      simpa [ExtendedMantissa.shiftRightOne] using positive
  · have halves : (mantissa : ℚ) = 2 * (mantissa / 2 : ℕ) + (mantissa % 2 : ℕ) := by
      exact_mod_cast (Nat.div_add_mod mantissa 2).symm
    have lastDigit : (mantissa % 2 != 0).toNat = mantissa % 2 := by
      rcases Nat.mod_two_eq_zero_or_one mantissa with even | odd
      · rw [even]
        rfl
      · rw [odd]
        rfl
    rw [ExtendedMantissa.shiftRightOne, lastDigit, halves]
    ring

/-- Shifting by so many digits divides by the power of two. -/
theorem Represents.shiftRight {extended : ExtendedMantissa} {exact : ℚ}
    (represents : Represents extended exact) (places : Nat) :
    Represents (extended >>> places) (exact / 2 ^ places) := by
  change Represents (places.repeat ExtendedMantissa.shiftRightOne extended) (exact / 2 ^ places)
  induction places with
  | zero => simpa [Nat.repeat] using represents
  | succ places inductionHypothesis =>
    rw [Nat.repeat, pow_succ, ← div_div]
    exact inductionHypothesis.shiftRightOne

/-- Rounding an extended mantissa gives the nearest whole number. -/
theorem Represents.nearestEven_eq {extended : ExtendedMantissa} {exact : ℚ}
    (represents : Represents extended exact) : nearestEven exact = extended.roundedMantissa := by
  obtain ⟨mantissa, roundBit, stickyBit⟩ := extended
  obtain ⟨rest, nonneg, below, sticky, told⟩ := represents
  -- the offset from the rounded mantissa is less than one half, or one half from an even one
  have within : ∀ {whole : Nat} (offset : ℚ), exact = whole + offset → -(1 / 2) ≤ offset →
      offset ≤ 1 / 2 → (|offset| = 1 / 2 → Even whole) → nearestEven exact = whole := by
    intro whole offset apart atLeast atMost even
    have difference : exact - (whole : ℤ) = offset := by
      rw [apart, Int.cast_natCast, add_sub_cancel_left]
    refine Binary64.nearestEven_eq (difference ▸ abs_le.mpr ⟨atLeast, atMost⟩) fun tie => ?_
    exact_mod_cast even (difference ▸ tie)
  cases roundBit with
  | false =>
    have kept : ExtendedMantissa.roundedMantissa ⟨mantissa, false, stickyBit⟩ = mantissa := by
      cases stickyBit <;> rfl
    rw [kept]
    refine within rest (by simpa using told) (by linarith) below.le fun tie => ?_
    rw [abs_of_nonneg nonneg] at tie
    exact absurd tie below.ne
  | true =>
    rw [Bool.toNat_true, Nat.cast_one] at told
    cases stickyBit with
    | false =>
      obtain rfl := sticky.mp rfl
      change nearestEven exact = ((mantissa + mantissa % 2 : ℕ) : ℤ)
      have even : Even (mantissa + mantissa % 2) := by
        rw [Nat.even_iff]
        omega
      have digit : ((mantissa % 2 : ℕ) : ℚ) ≤ 1 := by
        exact_mod_cast Nat.le_of_lt_succ (Nat.mod_lt mantissa two_pos)
      have digitNonneg : (0 : ℚ) ≤ (mantissa % 2 : ℕ) := Nat.cast_nonneg _
      refine within (1 / 2 - (mantissa % 2 : ℕ)) ?_ (by linarith) (by linarith) fun _ => even
      rw [told, Nat.cast_add]
      ring
    | true =>
      change nearestEven exact = ((mantissa + 1 : ℕ) : ℤ)
      have positive : rest ≠ 0 := fun none => Bool.noConfusion (sticky.mpr none)
      refine within (rest - 1 / 2) ?_ (by linarith) (by linarith) fun tie => ?_
      · rw [told, Nat.cast_add]
        ring
      · rw [abs_of_neg (by linarith)] at tie
        exact absurd (by linarith) positive

end Mantissas

section Results

/-- A finite number is what an exact result is rounded to. -/
structure RoundsTo (exact : ℚ) (number : UnpackedFloat) : Prop where
  wellFormed : WellFormed number
  isFinite : number.isFinite = true
  value_eq : value number = rounded exact

/-- The place of the last digit that is kept of a mantissa with an exponent. -/
def target (mantissa : Nat) (exponent : Int) : Int :=
  Format.binary64.targetExponent (totalExponent mantissa exponent)

theorem target_eq (mantissa : Nat) (exponent : Int) :
    target mantissa exponent = max (mantissa.log2 + 1 + exponent - 53) (-1074) :=
  rfl

section Shift

variable {mantissa : Nat} {accuracy : Accuracy} {exponent : Int} {exact : ℚ}
  (told : Represents (.ofMantissaAndAccuracy mantissa accuracy) exact)
  (before : exponent ≤ target mantissa exponent)

include told before

/-- What is shifted to its target are the digits of the number divided by the place of the
target. -/
theorem shiftToTargetExponent_spec :
    let shifted := shiftToTargetExponent Format.binary64 mantissa exponent accuracy
    shifted.2 = target mantissa exponent ∧
      Represents shifted.1 (exact * 2 ^ exponent / 2 ^ target mantissa exponent) := by
  constructor
  · change exponent + (target mantissa exponent - exponent).toNat = target mantissa exponent
    omega
  · have quotient : exact * 2 ^ exponent / 2 ^ target mantissa exponent =
        exact / 2 ^ (target mantissa exponent - exponent).toNat := by
      rw [← zpow_natCast, Int.toNat_of_nonneg (by omega), zpow_sub₀ two_ne_zero,
        div_div_eq_mul_div]
    rw [quotient]
    exact told.shiftRight _

omit before in
theorem magnitude_lt : exact * 2 ^ exponent < 2 ^ (target mantissa exponent + 53) := by
  have below := told.between.2
  rw [ofMantissaAndAccuracy_mantissa] at below
  have leading : (mantissa + 1 : ℚ) ≤ 2 ^ (mantissa.log2 + 1 : ℤ) := by
    exact_mod_cast Nat.succ_le_of_lt (Nat.lt_log2_self (n := mantissa))
  calc exact * 2 ^ exponent < 2 ^ (mantissa.log2 + 1 : ℤ) * 2 ^ exponent :=
        mul_lt_mul_of_pos_right (below.trans_le leading) (two_zpow_pos exponent)
    _ = 2 ^ (mantissa.log2 + 1 + exponent : ℤ) := (zpow_add₀ two_ne_zero _ _).symm
    _ ≤ 2 ^ (target mantissa exponent + 53) := by
        apply zpow_le_zpow_right₀ one_le_two
        rw [target_eq]
        omega

theorem le_magnitude : target mantissa exponent = -1074 ∨
    2 ^ (target mantissa exponent + 52) ≤ exact * 2 ^ exponent := by
  rcases eq_or_ne (target mantissa exponent) (-1074) with last | notLast
  · exact .inl last
  right
  have positive : mantissa ≠ 0 := by
    rintro rfl
    rw [target_eq, show Nat.log2 0 = 0 by decide] at before notLast
    omega
  have above := told.between.1
  rw [ofMantissaAndAccuracy_mantissa] at above
  have leading : (2 ^ (mantissa.log2 : ℤ) : ℚ) ≤ mantissa := by
    exact_mod_cast Nat.log2_self_le positive
  calc (2 ^ (target mantissa exponent + 52) : ℚ) = 2 ^ (mantissa.log2 + exponent : ℤ) := by
        rw [target_eq] at notLast ⊢
        rw [max_eq_left (by omega), show (mantissa.log2 + 1 + exponent - 53 + 52 : ℤ) =
          mantissa.log2 + exponent by ring]
    _ = 2 ^ (mantissa.log2 : ℤ) * 2 ^ exponent := zpow_add₀ two_ne_zero _ _
    _ ≤ exact * 2 ^ exponent :=
        mul_le_mul_of_nonneg_right (leading.trans above) (two_zpow_pos exponent).le

/-- What is rounded at its target is the nearest double, and has at most one digit more than a
canonical mantissa. -/
theorem rounded_at_target {digits : Nat}
    (nearest : nearestEven (exact * 2 ^ exponent / 2 ^ target mantissa exponent) = digits) :
    rounded (exact * 2 ^ exponent) = digits * 2 ^ target mantissa exponent ∧
      digits ≤ 2 ^ 53 ∧ (target mantissa exponent = -1074 ∨ 2 ^ 52 ≤ digits) := by
  have magnitude : 0 ≤ exact * 2 ^ exponent :=
    mul_nonneg ((Nat.cast_nonneg _).trans told.between.1) (two_zpow_pos exponent).le
  have place := two_zpow_pos (target mantissa exponent)
  have below : exact * 2 ^ exponent < 2 ^ (target mantissa exponent + 53) := magnitude_lt told
  have above := le_magnitude told before
  have near := abs_le.mp
    (abs_sub_nearestEven_le (exact * 2 ^ exponent / 2 ^ target mantissa exponent))
  rw [nearest, Int.cast_natCast] at near
  refine ⟨?_, ?_, above.imp_right fun atLeast => ?_⟩
  · have equation := rounded_eq (le_max_right _ _) (by rwa [abs_of_nonneg magnitude])
      (by rwa [abs_of_nonneg magnitude]) nearest
    rwa [Int.cast_natCast] at equation
  · have quotient : exact * 2 ^ exponent / 2 ^ target mantissa exponent < 2 ^ 53 := by
      rw [div_lt_iff₀ place, ← zpow_natCast, ← zpow_add₀ two_ne_zero, add_comm]
      exact below
    have : (digits : ℚ) < 2 ^ 53 + 1 := by linarith
    have : digits < 2 ^ 53 + 1 := by exact_mod_cast this
    omega
  · have quotient : 2 ^ 52 ≤ exact * 2 ^ exponent / 2 ^ target mantissa exponent := by
      rw [le_div_iff₀ place, ← zpow_natCast, ← zpow_add₀ two_ne_zero, add_comm]
      exact atLeast
    have : (2 ^ 52 : ℚ) < digits + 1 := by linarith
    have : 2 ^ 52 < digits + 1 := by exact_mod_cast this
    omega

end Shift

/-- A rounded mantissa is shifted by at most one digit more, and then it is canonical. -/
theorem shiftToTargetExponent_rounded {mantissa : Nat} {exponent : Int}
    (few : mantissa ≤ 2 ^ 53) (last : -1074 ≤ exponent)
    (full : exponent = -1074 ∨ 2 ^ 52 ≤ mantissa) :
    let shifted := shiftToTargetExponent Format.binary64 mantissa exponent .exact
    Canonical shifted.1.mantissa shifted.2 ∧
      (shifted.1.mantissa * 2 ^ shifted.2 : ℚ) = mantissa * 2 ^ exponent := by
  rcases few.eq_or_lt with rfl | fewer
  · have next : target (2 ^ 53) exponent = exponent + 1 := by
      rw [target_eq, Nat.log2_two_pow]
      omega
    have once : shiftToTargetExponent Format.binary64 (2 ^ 53) exponent .exact =
        (⟨2 ^ 52, false, false⟩, exponent + 1) := by
      change shiftToExponent (2 ^ 53) exponent .exact (target (2 ^ 53) exponent) = _
      rw [next, shiftToExponent, show (exponent + 1 - exponent).toNat = 1 by omega]
      rfl
    intro shifted
    simp only [shifted, once]
    refine ⟨⟨by norm_num, by omega, .inr le_rfl⟩, ?_⟩
    rw [zpow_add_one₀ two_ne_zero]
    push_cast
    ring
  · have stays : target mantissa exponent ≤ exponent := by
      have digits : mantissa.log2 < 53 := by
        rcases Nat.eq_zero_or_pos mantissa with rfl | positive
        · decide
        · exact (Nat.log2_lt positive.ne').mpr fewer
      rw [target_eq]
      omega
    have same : shiftToTargetExponent Format.binary64 mantissa exponent .exact =
        (.ofMantissaAndAccuracy mantissa .exact, exponent) := by
      change shiftToExponent mantissa exponent .exact (target mantissa exponent) = _
      rw [shiftToExponent, show (target mantissa exponent - exponent).toNat = 0 by omega]
      exact Prod.ext rfl (add_zero exponent)
    intro shifted
    simp only [shifted, same]
    exact ⟨⟨fewer, last, full⟩, rfl⟩

/-- Rounding a mantissa that has no digits to spare gives the nearest double. -/
theorem roundWithAccuracy_spec (sign : Sign) {mantissa : Nat} {accuracy : Accuracy}
    {exponent : Int} {exact : ℚ}
    (told : Represents (.ofMantissaAndAccuracy mantissa accuracy) exact)
    (before : exponent ≤ target mantissa exponent) :
    RoundsTo (signed sign (exact * 2 ^ exponent))
      (roundWithAccuracy Format.binary64 sign mantissa exponent accuracy) := by
  obtain ⟨place, represents⟩ := shiftToTargetExponent_spec told before
  obtain ⟨nearest, few, full⟩ := rounded_at_target told before represents.nearestEven_eq
  rw [← place] at nearest full
  obtain ⟨canonical, same⟩ := shiftToTargetExponent_rounded few
    (place.symm ▸ le_max_right _ _) full
  rw [← same] at nearest
  unfold roundWithAccuracy
  dsimp only
  split
  next zero =>
    refine ⟨trivial, rfl, ?_⟩
    rw [rounded_signed, nearest, zero, Nat.cast_zero, zero_mul, signed_zero, value_zero]
  next nonzero =>
    refine ⟨canonical, rfl, ?_⟩
    rw [rounded_signed, nearest, value]

/-- Filling a mantissa up with zeros keeps the number. -/
theorem decreaseExponent_value (mantissa : Nat) (exponent lower : Int) :
    ((decreaseExponent mantissa exponent lower).1 *
      2 ^ (decreaseExponent mantissa exponent lower).2 : ℚ) = mantissa * 2 ^ exponent := by
  rw [decreaseExponent, Nat.shiftLeft_eq, Nat.cast_mul, Nat.cast_pow, Nat.cast_ofNat, mul_assoc,
    ← zpow_natCast, ← zpow_add₀ two_ne_zero, add_sub_cancel]

theorem decreaseExponent_exponent (mantissa : Nat) {exponent lower : Int}
    (below : lower ≤ exponent) : (decreaseExponent mantissa exponent lower).2 = lower := by
  rw [decreaseExponent]
  omega

/-- A mantissa that is filled up to its target has no digits to spare. -/
theorem decreaseExponent_before {mantissa : Nat} (exponent : Int) (positive : 0 < mantissa) :
    let filled := decreaseExponent mantissa exponent (target mantissa exponent)
    filled.2 ≤ target filled.1 filled.2 := by
  intro filled
  have shifted : filled.1 =
      mantissa * 2 ^ (exponent - target mantissa exponent).toNat := Nat.shiftLeft_eq _ _
  have some : 0 < filled.1 := by
    rw [shifted]
    positivity
  have digits : mantissa.log2 + (exponent - target mantissa exponent).toNat ≤ filled.1.log2 := by
    rw [Nat.le_log2 some.ne', shifted, pow_add]
    exact Nat.mul_le_mul_right _ (Nat.log2_self_le positive.ne')
  have place : filled.2 = exponent - (exponent - target mantissa exponent).toNat := rfl
  rw [target_eq] at digits place ⊢
  omega

/-- Rounding gives the nearest double. -/
theorem round_spec (sign : Sign) {mantissa : Nat} (exponent : Int) (positive : 0 < mantissa) :
    RoundsTo (signed sign (mantissa * 2 ^ exponent))
      (round Format.binary64 sign mantissa exponent) := by
  have rounds := roundWithAccuracy_spec sign (represents_exact _)
    (decreaseExponent_before exponent positive)
  rwa [decreaseExponent_value mantissa exponent] at rounds

/-- Normalizing gives the nearest double. -/
theorem normalize_spec (mantissa exponent : Int) (zeroSign : Sign) :
    RoundsTo (mantissa * 2 ^ exponent)
      (UnpackedFloat.normalize Format.binary64 mantissa exponent zeroSign) := by
  unfold UnpackedFloat.normalize
  split
  next negative =>
    have below := compare_lt_iff_lt.mp negative
    have same : ((-mantissa).toNat : ℚ) = -mantissa := by
      exact_mod_cast Int.toNat_of_nonneg (neg_nonneg.mpr below.le)
    have rounds := round_spec .negative exponent (show 0 < (-mantissa).toNat by omega)
    rwa [signed, same, neg_mul, neg_neg] at rounds
  next zero =>
    obtain rfl := compare_eq_iff_eq.mp zero
    refine ⟨trivial, rfl, ?_⟩
    rw [value_zero, Int.cast_zero, zero_mul, rounded_of_onGrid .zero]
  next positive =>
    have above := compare_gt_iff_gt.mp positive
    have same : (mantissa.toNat : ℚ) = mantissa := by
      exact_mod_cast Int.toNat_of_nonneg above.le
    have rounds := round_spec .positive exponent (show 0 < mantissa.toNat by omega)
    rwa [signed, same] at rounds

end Results

end SpringArm.Binary64
