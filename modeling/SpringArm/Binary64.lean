/-!
# Binary64

The exact value behind a double: a natural significand times a power of two. `magnitude` reads
it off the bits and `ofGrid` puts a multiple of a power of two back into a double. All digit
selection and all correctly rounded roots of this library work on these exact numbers.
-/

namespace SpringArm.Binary64

/-- The absolute value `significand * 2 ^ exponent` of a finite double. -/
structure Magnitude where
  significand : Nat
  exponent : Int
  /-- The gap to the next smaller double is half the gap to the next larger one. -/
  narrowBelow : Bool
deriving DecidableEq

/-- The sign bit of a double, which also a zero carries. -/
def isNegative (value : Float) : Bool :=
  value.toBits >>> 63 == 1

/-- The exact absolute value of a double. Infinities and the undefined value have none: they
are told apart before this function is used. -/
def magnitude (value : Float) : Magnitude :=
  let exponentField := ((value.toBits >>> 52) &&& 0x7FF).toNat
  let fraction := (value.toBits &&& 0xFFFFFFFFFFFFF).toNat
  if exponentField = 0 then
    ⟨fraction, -1074, false⟩
  else
    ⟨(1 <<< 52) + fraction, (exponentField : Int) - 1075, fraction = 0 && exponentField > 1⟩

/-- The exponent of the spacing of doubles around a positive number whose leading binary digit
has weight `2 ^ leading`. -/
def spacing (leading : Int) : Int :=
  max (-1074) (leading - 52)

/-- The double `count * 2 ^ exponent` for a count of at most `2 ^ 53` and an exponent of at least
`-1074` that is the spacing at this number. A number beyond the finite doubles becomes infinite. -/
def ofGrid (count : Nat) (exponent : Int) : Float :=
  if count < 1 <<< 52 then
    Float.ofBits (UInt64.ofNat count)
  else
    let bits := ((exponent + 1075).toNat <<< 52) + (count - (1 <<< 52))
    if bits < 0x7FF <<< 52 then Float.ofBits (UInt64.ofNat bits) else 1.0 / 0.0

end SpringArm.Binary64
