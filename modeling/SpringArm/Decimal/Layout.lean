import SpringArm.Decimal.Shortest

/-!
# Layout

The text of a double: its shortest digits, written positionally when the exponent of the leading
digit is at least -4 and below 16, otherwise with an exponent. A positional text always holds a
point; an exponent always has a sign and at least two digits. Zeros keep their sign.
-/

namespace SpringArm.Decimal

/-- The decimal digits of a natural number. -/
def natDigits (number : Nat) : List Char :=
  Nat.toDigits 10 number

/-- The text of an integer: its digits behind a minus sign if it is negative. -/
def intText (number : Int) : List Char :=
  if number < 0 then '-' :: natDigits number.natAbs else natDigits number.natAbs

/-- Digits with the point behind the digit of weight one. `leading` is the exponent of the first
digit. -/
def positional (digits : List Char) (leading : Int) : List Char :=
  if leading < 0 then
    '0' :: '.' :: List.replicate (-leading - 1).toNat '0' ++ digits
  else
    let places := leading.toNat + 1
    if digits.length ≤ places then
      digits ++ List.replicate (places - digits.length) '0' ++ ['.', '0']
    else
      digits.take places ++ '.' :: digits.drop places

/-- An exponent with its sign and at least two digits. -/
def exponentText (exponent : Int) : List Char :=
  let digits := natDigits exponent.natAbs
  let sign := if exponent < 0 then '-' else '+'
  'e' :: sign :: List.replicate (2 - digits.length) '0' ++ digits

/-- Digits with the point behind the first one, if more follow, and the exponent. -/
def scientific (digits : List Char) (leading : Int) : List Char :=
  match digits with
  | [] => exponentText leading
  | [digit] => digit :: exponentText leading
  | digit :: more => digit :: '.' :: more ++ exponentText leading

/-- The text of a decimal that is not negative. -/
def Number.text (decimal : Number) : List Char :=
  let digits := natDigits decimal.digits
  let leading := decimal.exponent + (digits.length : Int) - 1
  if -4 ≤ leading && leading < 16 then positional digits leading else scientific digits leading

/-- The text of the absolute value of a finite double. -/
def magnitudeText (value : Float) : List Char :=
  let magnitude := Binary64.magnitude value
  if magnitude.significand = 0 then ['0', '.', '0'] else (shortest magnitude).text

/-- The text of a double. -/
def floatText (value : Float) : List Char :=
  if value.isNaN then
    ['n', 'a', 'n']
  else
    let unsigned := if value.isInf then ['i', 'n', 'f'] else magnitudeText value
    if Binary64.isNegative value then '-' :: unsigned else unsigned

end SpringArm.Decimal
