import Mathlib

/-!
# Signs of doubles

Rounding a number to a double keeps its sign, so an absolute value is undefined or at least zero.
Every double that is not undefined is at least zero or below it.
-/

namespace SpringArm.Binary64

open Float.Model (Format UnpackedFloat)
open Float.Model.UnpackedFloat

/-- The sign of a number. The undefined one has none. -/
def sign? : UnpackedFloat → Option Sign
  | .notANumber => none
  | .infinity sign => some sign
  | .zero sign => some sign
  | .finite sign _ _ _ => some sign

theorem isNaN_of_sign?_eq_none {number : UnpackedFloat} (unsigned : sign? number = none) :
    number.isNaN = true := by
  cases number with
  | notANumber => rfl
  | infinity sign => cases unsigned
  | zero sign => cases unsigned
  | finite sign mantissa exponent positive => cases unsigned

section Packing

variable (format : Format) (sign : Sign) (exponent : BitVec format.exponentBits)
  (mantissa : BitVec format.mantissaBitsWithoutImplicit)

/-- A number that is put together has its sign, unless it is undefined. -/
theorem sign?_packComponents (defined : exponent = -1#_ → mantissa = 0#_) :
    sign? (unpack format (packComponents format sign exponent mantissa)) = some sign := by
  simp only [unpack, unpackMantissa_packComponents, unpackExponent_packComponents,
    unpackSign_packComponents, Sign.ofBitVec_toBitVec]
  split
  next all => rw [if_pos (defined all), sign?]
  · split
    · split <;> rfl
    · rfl

end Packing

/-- Packing a number keeps its sign. -/
theorem sign?_pack (number : UnpackedFloat) :
    sign? (unpack Format.binary64 (pack Format.binary64 number)) = sign? number := by
  unfold pack
  split
  next => rfl
  next sign => exact sign?_packComponents _ sign _ _ fun _ => rfl
  next sign => exact sign?_packComponents _ sign _ _ fun _ => rfl
  next sign mantissa exponent positive =>
    dsimp only
    split
    · exact sign?_packComponents _ sign _ _ fun _ => rfl
    next fits =>
      split
      · apply sign?_packComponents
        intro all
        have same := congrArg BitVec.toNat all
        simp only [BitVec.toNat_ofNat, Nat.reducePow, BitVec.reduceNeg, Nat.mod_succ] at same
        omega
      · exact sign?_packComponents _ sign _ _ fun all => absurd all (by decide)

/-- A number with the sign of plus is at least zero. -/
theorem zero_le_of_sign? {number : UnpackedFloat} (positive : sign? number = some .positive) :
    (UnpackedFloat.zero .positive).le number = true := by
  cases number <;> cases positive <;> rfl

theorem sign?_abs (number : UnpackedFloat) :
    sign? number.abs = (sign? number).map fun _ => .positive := by
  cases number <;> rfl

theorem le_iff {first second : Float} :
    first ≤ second ↔ first.toModel.unpack.le second.toModel.unpack = true :=
  decide_eq_true_iff

theorem lt_iff {first second : Float} :
    first < second ↔ first.toModel.unpack.lt second.toModel.unpack = true :=
  decide_eq_true_iff

theorem unpack_zero : (0 : Float).toModel.unpack = .zero .positive := by
  rfl

/-- An absolute value is at least zero or undefined. -/
theorem zero_le_abs_or_isNaN (value : Float) : 0 ≤ value.abs ∨ value.abs.isNaN = true := by
  have sign : sign? value.abs.toModel.unpack =
      (sign? value.toModel.unpack).map fun _ => .positive :=
    (sign?_pack value.toModel.unpack.abs).trans (sign?_abs value.toModel.unpack)
  rw [le_iff, unpack_zero]
  cases known : sign? value.toModel.unpack with
  | none =>
    rw [known] at sign
    exact .inr (isNaN_of_sign?_eq_none sign)
  | some _ =>
    rw [known] at sign
    exact .inl (zero_le_of_sign? sign)

/-- A double is at least zero, or below it, or undefined. -/
theorem zero_le_or_lt_or_isNaN (value : Float) :
    0 ≤ value ∨ value < 0 ∨ value.isNaN = true := by
  rw [le_iff, lt_iff, unpack_zero]
  change _ ∨ _ ∨ value.toModel.unpack.isNaN = true
  cases value.toModel.unpack with
  | notANumber => exact .inr (.inr rfl)
  | infinity sign => cases sign <;> decide
  | zero sign => exact .inl rfl
  | finite sign mantissa exponent positive =>
    cases sign with
    | negative => exact .inr (.inl rfl)
    | positive => exact .inl rfl

/-- What is at least zero or undefined is not below zero. -/
theorem not_lt_zero {value : Float} (upright : 0 ≤ value ∨ value.isNaN = true) : ¬ value < 0 := by
  rw [le_iff, unpack_zero] at upright
  change _ ∨ value.toModel.unpack.isNaN = true at upright
  rw [lt_iff, unpack_zero]
  cases number : value.toModel.unpack with
  | notANumber => simp [UnpackedFloat.lt, UnpackedFloat.compare]
  | infinity sign =>
    rw [number] at upright
    cases sign <;> revert upright <;> decide
  | zero sign => simp [UnpackedFloat.lt, UnpackedFloat.compare]
  | finite sign mantissa exponent positive =>
    rw [number] at upright
    cases sign with
    | negative =>
      rcases upright with atLeast | undefined
      · cases atLeast
      · cases undefined
    | positive => simp [UnpackedFloat.lt, UnpackedFloat.compare]

end SpringArm.Binary64
