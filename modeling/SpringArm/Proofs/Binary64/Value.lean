import SpringArm.Proofs.Binary64.Rounding
import SpringArm.Proofs.Binary64.Sign

/-!
# Values of doubles

A finite double stands for a rational. Doubles are compared as their values, and packing keeps the
value of every number with at most 53 binary digits unless it is too large.
-/

namespace SpringArm.Binary64

open Float.Model (Format UnpackedFloat)
open Float.Model.UnpackedFloat

/-- A mantissa has 53 binary digits, or fewer where its last digit is at the last place of all. -/
structure Canonical (mantissa : Nat) (exponent : Int) : Prop where
  few : mantissa < 2 ^ 53
  last : -1074 ≤ exponent
  full : exponent = -1074 ∨ 2 ^ 52 ≤ mantissa

/-- A finite number has a canonical mantissa. -/
def WellFormed : UnpackedFloat → Prop
  | .finite _ mantissa exponent _ => Canonical mantissa exponent
  | _ => True

/-- A magnitude with a sign. -/
def signed : Sign → ℚ → ℚ
  | .negative, magnitude => -magnitude
  | .positive, magnitude => magnitude

theorem signed_zero (sign : Sign) : signed sign 0 = 0 := by
  cases sign
  · exact neg_zero
  · rfl

theorem abs_signed (sign : Sign) (magnitude : ℚ) : |signed sign magnitude| = |magnitude| := by
  cases sign
  · exact abs_neg magnitude
  · rfl

theorem rounded_signed (sign : Sign) (magnitude : ℚ) :
    rounded (signed sign magnitude) = signed sign (rounded magnitude) := by
  cases sign
  · exact rounded_neg magnitude
  · rfl

theorem OnGrid.signed {magnitude : ℚ} (onGrid : OnGrid magnitude) (sign : Sign) :
    OnGrid (signed sign magnitude) := by
  cases sign
  · exact onGrid.neg
  · exact onGrid

/-- The rational that a finite number stands for. -/
def value : UnpackedFloat → ℚ
  | .finite sign mantissa exponent _ => signed sign (mantissa * 2 ^ exponent)
  | _ => 0

theorem value_zero (sign : Sign) : value (.zero sign) = 0 :=
  rfl

theorem magnitude_pos {mantissa : Nat} (exponent : Int) (positive : 0 < mantissa) :
    (0 : ℚ) < mantissa * 2 ^ exponent :=
  mul_pos (Nat.cast_pos.mpr positive) (two_zpow_pos exponent)

theorem abs_value_finite (sign : Sign) {mantissa : Nat} (exponent : Int)
    (positive : 0 < mantissa) :
    |value (.finite sign mantissa exponent positive)| = mantissa * 2 ^ exponent := by
  rw [value, abs_signed, abs_of_pos (magnitude_pos exponent positive)]

theorem onGrid_value {number : UnpackedFloat} (wellFormed : WellFormed number) :
    OnGrid (value number) := by
  cases number with
  | finite sign mantissa exponent positive =>
    exact (OnGrid.of_digits wellFormed.few wellFormed.last).signed sign
  | notANumber => exact .zero
  | infinity sign => exact .zero
  | zero sign => exact .zero

section Order

/-- Of two canonical magnitudes the one with the smaller exponent is smaller. -/
theorem Canonical.lt_of_exponent_lt {mantissa other : Nat} {exponent otherExponent : Int}
    (canonical : Canonical mantissa exponent) (otherCanonical : Canonical other otherExponent)
    (smaller : exponent < otherExponent) :
    (mantissa * 2 ^ exponent : ℚ) < other * 2 ^ otherExponent := by
  have full : 2 ^ 52 ≤ other :=
    otherCanonical.full.resolve_left (canonical.last.trans_lt smaller).ne'
  calc (mantissa * 2 ^ exponent : ℚ) < 2 ^ 53 * 2 ^ exponent := by
        have few : (mantissa : ℚ) < 2 ^ 53 := by exact_mod_cast canonical.few
        exact mul_lt_mul_of_pos_right few (two_zpow_pos exponent)
    _ = 2 ^ 52 * 2 ^ (exponent + 1) := by
        rw [zpow_add_one₀ two_ne_zero]
        ring
    _ ≤ 2 ^ 52 * 2 ^ otherExponent :=
        mul_le_mul_of_nonneg_left (zpow_le_zpow_right₀ one_le_two smaller) (by norm_num)
    _ ≤ other * 2 ^ otherExponent := by
        have atLeast : (2 ^ 52 : ℚ) ≤ other := by exact_mod_cast full
        exact mul_le_mul_of_nonneg_right atLeast (two_zpow_pos otherExponent).le

/-- Canonical magnitudes are compared by their exponents, and then by their mantissas. -/
theorem Canonical.compare_eq {mantissa other : Nat} {exponent otherExponent : Int}
    (canonical : Canonical mantissa exponent) (otherCanonical : Canonical other otherExponent) :
    (compare exponent otherExponent).then (compare mantissa other) =
      compare (mantissa * 2 ^ exponent : ℚ) (other * 2 ^ otherExponent) := by
  rcases lt_trichotomy exponent otherExponent with smaller | rfl | larger
  · rw [compare_lt_iff_lt.mpr smaller,
      compare_lt_iff_lt.mpr (canonical.lt_of_exponent_lt otherCanonical smaller)]
    rfl
  · rw [compare_eq_iff_eq.mpr rfl, Ordering.eq_then]
    rcases lt_trichotomy mantissa other with fewer | rfl | more
    · have : (mantissa : ℚ) < other := by exact_mod_cast fewer
      rw [compare_lt_iff_lt.mpr fewer,
        compare_lt_iff_lt.mpr (mul_lt_mul_of_pos_right this (two_zpow_pos exponent))]
    · rw [compare_eq_iff_eq.mpr rfl, compare_eq_iff_eq.mpr rfl]
    · have : (other : ℚ) < mantissa := by exact_mod_cast more
      rw [compare_gt_iff_gt.mpr more,
        compare_gt_iff_gt.mpr (mul_lt_mul_of_pos_right this (two_zpow_pos exponent))]
  · rw [compare_gt_iff_gt.mpr larger,
      compare_gt_iff_gt.mpr (otherCanonical.lt_of_exponent_lt canonical larger)]
    rfl

theorem value_finite_positive_pos (mantissa : Nat) (exponent : Int) (positive : 0 < mantissa) :
    0 < value (.finite .positive mantissa exponent positive) :=
  magnitude_pos exponent positive

theorem value_finite_negative_neg (mantissa : Nat) (exponent : Int) (positive : 0 < mantissa) :
    value (.finite .negative mantissa exponent positive) < 0 :=
  neg_lt_zero.mpr (magnitude_pos exponent positive)

theorem compare_neg_neg (first second : ℚ) : compare (-first) (-second) = compare second first := by
  rcases lt_trichotomy second first with smaller | rfl | larger
  · rw [compare_lt_iff_lt.mpr smaller, compare_lt_iff_lt.mpr (neg_lt_neg smaller)]
  · rw [compare_eq_iff_eq.mpr rfl, compare_eq_iff_eq.mpr rfl]
  · rw [compare_gt_iff_gt.mpr larger, compare_gt_iff_gt.mpr (neg_lt_neg larger)]

/-- Finite numbers are compared as their values. -/
theorem compare_eq {first second : UnpackedFloat} (finite : first.isFinite = true)
    (otherFinite : second.isFinite = true) (wellFormed : WellFormed first)
    (otherWellFormed : WellFormed second) :
    first.compare second = some (compare (value first) (value second)) := by
  match first, second with
  | .zero _, .zero _ => rfl
  | .zero sign, .finite .positive mantissa exponent positive =>
    have above := value_finite_positive_pos mantissa exponent positive
    rw [value_zero, compare_lt_iff_lt.mpr above]
    rfl
  | .zero sign, .finite .negative mantissa exponent positive =>
    have below := value_finite_negative_neg mantissa exponent positive
    rw [value_zero, compare_gt_iff_gt.mpr below]
    rfl
  | .finite .positive mantissa exponent positive, .zero sign =>
    have above := value_finite_positive_pos mantissa exponent positive
    rw [value_zero, compare_gt_iff_gt.mpr above]
    rfl
  | .finite .negative mantissa exponent positive, .zero sign =>
    have below := value_finite_negative_neg mantissa exponent positive
    rw [value_zero, compare_lt_iff_lt.mpr below]
    rfl
  | .finite .positive mantissa exponent positive, .finite .negative other otherExponent more =>
    have above := value_finite_positive_pos mantissa exponent positive
    have below := value_finite_negative_neg other otherExponent more
    rw [compare_gt_iff_gt.mpr (below.trans above)]
    rfl
  | .finite .negative mantissa exponent positive, .finite .positive other otherExponent more =>
    have below := value_finite_negative_neg mantissa exponent positive
    have above := value_finite_positive_pos other otherExponent more
    rw [compare_lt_iff_lt.mpr (below.trans above)]
    rfl
  | .finite .positive mantissa exponent positive, .finite .positive other otherExponent more =>
    rw [value, value, signed, signed, ← wellFormed.compare_eq otherWellFormed]
    rfl
  | .finite .negative mantissa exponent positive, .finite .negative other otherExponent more =>
    rw [value, value, signed, signed, compare_neg_neg,
      Std.OrientedOrd.eq_swap, ← wellFormed.compare_eq otherWellFormed]
    rfl

end Order

section Packing

/-- The power of two that is too large for a double. -/
def limit : ℚ :=
  2 ^ (1024 : ℤ)

theorem limit_pos : 0 < limit :=
  two_zpow_pos 1024

/-- A canonical magnitude is in the range of the doubles if its exponent is. -/
theorem Canonical.lt_iff {mantissa : Nat} {exponent : Int}
    (canonical : Canonical mantissa exponent) :
    (mantissa * 2 ^ exponent : ℚ) < limit ↔ exponent ≤ 971 := by
  constructor
  · intro small
    by_contra! large
    have full : (2 ^ 52 : ℚ) ≤ mantissa := by
      exact_mod_cast canonical.full.resolve_left (by omega)
    have : limit ≤ mantissa * 2 ^ exponent := by
      calc limit = 2 ^ 52 * 2 ^ (972 : ℤ) := by
            rw [← zpow_natCast 2 52, ← zpow_add₀ two_ne_zero]
            rfl
        _ ≤ mantissa * 2 ^ exponent :=
            mul_le_mul full (zpow_le_zpow_right₀ one_le_two large) (two_zpow_pos _).le
              (Nat.cast_nonneg _)
    exact absurd small this.not_gt
  · intro fits
    have few : (mantissa : ℚ) < 2 ^ 53 := by exact_mod_cast canonical.few
    calc (mantissa * 2 ^ exponent : ℚ) < 2 ^ 53 * 2 ^ exponent :=
          mul_lt_mul_of_pos_right few (two_zpow_pos _)
      _ ≤ 2 ^ 53 * 2 ^ (971 : ℤ) :=
          mul_le_mul_of_nonneg_left (zpow_le_zpow_right₀ one_le_two fits) (by norm_num)
      _ = limit := by
          rw [← zpow_natCast 2 53, ← zpow_add₀ two_ne_zero]
          rfl

/-- The leading digit is put before the other 52. -/
theorem toNat_one_append (digits : BitVec 52) :
    (1#1 ++ digits).toNat = 2 ^ 52 + digits.toNat := by
  have joined := Nat.two_pow_add_eq_or_of_lt digits.isLt 1
  rw [mul_one] at joined
  rw [BitVec.toNat_append, joined]
  rfl

/-- Whatever is unpacked has a canonical mantissa and is in range. -/
theorem wellFormed_unpack (bits : BitVec Format.binary64.numBits) :
    WellFormed (unpack Format.binary64 bits) ∧
      |value (unpack Format.binary64 bits)| < limit := by
  have range : ∀ {number : UnpackedFloat}, value number = 0 → |value number| < limit := by
    intro number zero
    rw [zero, abs_zero]
    exact limit_pos
  have finite : ∀ {sign : Sign} {mantissa : Nat} {exponent : Int} {positive : 0 < mantissa},
      Canonical mantissa exponent → exponent ≤ 971 →
        WellFormed (.finite sign mantissa exponent positive) ∧
          |value (.finite sign mantissa exponent positive)| < limit := by
    intro sign mantissa exponent positive canonical fits
    rw [abs_value_finite]
    exact ⟨canonical, canonical.lt_iff.mpr fits⟩
  unfold unpack
  extract_lets mantissa exponent place signBit sign
  have few : mantissa.toNat < 2 ^ 52 := mantissa.isLt
  split
  next all =>
    split
    · exact ⟨trivial, range rfl⟩
    · exact ⟨trivial, range rfl⟩
  next notAll =>
    split
    next none =>
      split
      · exact ⟨trivial, range rfl⟩
      · have last : place + 1 = -1074 := by
          simp only [place, none]
          rfl
        rw [last]
        exact finite ⟨few.trans (by norm_num), le_rfl, .inl rfl⟩ (by norm_num)
    next some =>
      have leading := toNat_one_append mantissa
      have positive : 0 < exponent.toNat :=
        Nat.pos_of_ne_zero fun zero => some (BitVec.toNat_inj.mp zero)
      have bounded : exponent.toNat < 2047 := by
        have below : exponent.toNat < 2048 := exponent.isLt
        have different : exponent.toNat ≠ 2047 := fun same => notAll (BitVec.toNat_inj.mp same)
        omega
      have shifted : place = exponent.toNat - 1075 := rfl
      refine finite ⟨?_, ?_, .inr ?_⟩ ?_ <;> omega

theorem pack_finite (sign : Sign) {mantissa : Nat} (exponent : Int) (positive : 0 < mantissa) :
    pack Format.binary64 (.finite sign mantissa exponent positive) =
      if 2 ^ 11 ≤ (exponent + 1075).toNat + 1 then packedInfinity Format.binary64 sign
      else if mantissa.log2 + 1 = 53 then
        packComponents Format.binary64 sign (BitVec.ofNat _ (exponent + 1075).toNat)
          (BitVec.ofNat _ mantissa)
      else packComponents Format.binary64 sign 0#_ (BitVec.ofNat _ mantissa) := by
  rw [show exponent + 1075 = exponent + 1023 + 52 by ring]
  rfl

theorem unpack_packedInfinity (sign : Sign) :
    unpack Format.binary64 (packedInfinity Format.binary64 sign) = .infinity sign := by
  rw [packedInfinity, unpack]
  simp only [unpackMantissa_packComponents, unpackExponent_packComponents,
    unpackSign_packComponents, Sign.ofBitVec_toBitVec]
  rfl

/-- A number with the leading digit of the mantissa left out is put together again. -/
theorem unpack_normal (sign : Sign) {mantissa biased : Nat} (positive : 0 < mantissa)
    (full : 2 ^ 52 ≤ mantissa) (few : mantissa < 2 ^ 53) (some : 0 < biased)
    (notAll : biased < 2047) :
    unpack Format.binary64 (packComponents Format.binary64 sign (BitVec.ofNat _ biased)
      (BitVec.ofNat _ mantissa)) = .finite sign mantissa (biased - 1075) positive := by
  have exponentBits : (BitVec.ofNat 11 biased).toNat = biased := by
    rw [BitVec.toNat_ofNat, Nat.mod_eq_of_lt (by omega)]
  have below : (BitVec.ofNat 52 mantissa).toNat = mantissa - 2 ^ 52 := by
    rw [BitVec.toNat_ofNat]
    omega
  have leading : (1#1 ++ BitVec.ofNat 52 mantissa).toNat = mantissa := by
    rw [toNat_one_append, below]
    omega
  have notOnes : BitVec.ofNat 11 biased ≠ -1#11 := fun same =>
    notAll.ne (exponentBits.symm.trans (congrArg BitVec.toNat same))
  have notZeros : BitVec.ofNat 11 biased ≠ 0#11 := fun same =>
    some.ne' (exponentBits.symm.trans (congrArg BitVec.toNat same))
  rw [unpack]
  simp only [unpackMantissa_packComponents, unpackExponent_packComponents,
    unpackSign_packComponents, Sign.ofBitVec_toBitVec]
  rw [if_neg notOnes, if_neg notZeros]
  congr 1
  rw [exponentBits]
  rfl

/-- A number without a leading digit is put together again. -/
theorem unpack_subnormal (sign : Sign) {mantissa : Nat} (positive : 0 < mantissa)
    (few : mantissa < 2 ^ 52) :
    unpack Format.binary64 (packComponents Format.binary64 sign 0#_ (BitVec.ofNat _ mantissa)) =
      .finite sign mantissa (-1074) positive := by
  have bits : (BitVec.ofNat 52 mantissa).toNat = mantissa := by
    rw [BitVec.toNat_ofNat, Nat.mod_eq_of_lt few]
  have nonzero : BitVec.ofNat 52 mantissa ≠ 0#52 := by
    intro same
    rw [same] at bits
    exact positive.ne bits
  rw [unpack]
  simp only [unpackMantissa_packComponents, unpackExponent_packComponents,
    unpackSign_packComponents, Sign.ofBitVec_toBitVec]
  rw [if_neg (by decide), if_pos trivial, dif_neg nonzero]
  congr 1

/-- A number in range is unpacked as it was packed. -/
theorem unpack_pack {number : UnpackedFloat} (wellFormed : WellFormed number)
    (small : |value number| < limit) :
    unpack Format.binary64 (pack Format.binary64 number) = number := by
  cases number with
  | notANumber => exact unpack_packedNaN
  | infinity sign => exact unpack_packedInfinity sign
  | zero sign => exact unpack_packedZero
  | finite sign mantissa exponent positive =>
    have canonical : Canonical mantissa exponent := wellFormed
    rw [abs_value_finite, canonical.lt_iff] at small
    obtain ⟨few, last, full⟩ := canonical
    rw [pack_finite, if_neg (by omega)]
    -- without a leading digit the exponent is the last one, and none of its bits is set
    rcases lt_or_ge mantissa (2 ^ 52) with subnormal | normal
    · have digits := (Nat.log2_lt positive.ne').mpr subnormal
      obtain rfl : exponent = -1074 := full.resolve_right (by omega)
      rw [if_neg (by omega)]
      exact unpack_subnormal sign positive subnormal
    · have digits := (Nat.log2_eq_iff positive.ne').mpr ⟨normal, few⟩
      have shifted : ((exponent + 1075).toNat : ℤ) - 1075 = exponent := by omega
      rw [if_pos (by omega), unpack_normal sign positive normal few (by omega) (by omega), shifted]

/-- A number beyond the range is packed as infinity. -/
theorem isFinite_unpack_pack {number : UnpackedFloat} (wellFormed : WellFormed number)
    (large : limit ≤ |value number|) :
    (unpack Format.binary64 (pack Format.binary64 number)).isFinite = false := by
  have notZero : value number ≠ 0 := by
    intro zero
    rw [zero, abs_zero] at large
    exact absurd limit_pos large.not_gt
  cases number with
  | finite sign mantissa exponent positive =>
    rw [abs_value_finite, ← not_lt, Canonical.lt_iff wellFormed, not_le] at large
    rw [pack_finite, if_pos (by omega), unpack_packedInfinity]
    rfl
  | notANumber => exact absurd rfl notZero
  | infinity sign => exact absurd rfl notZero
  | zero sign => exact absurd rfl notZero

end Packing

end SpringArm.Binary64
