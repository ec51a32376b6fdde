import SpringArm.Text.Blank
import SpringArm.Text.Digit
import SpringArm.Text.Quoted

/-!
# Reading

Numbers read from texts. `ofDigits` turns the digits of a decimal into the nearest double; the
cells of a table may spell a number with digits of any script, with single underscores between
digits, with an exponent, or as a word for infinity or an undefined value. Integers are read
exactly, up to a limit on the count of their digits.
-/

namespace SpringArm.Decimal

/-- Exponents of the leading digit beyond this one are outside the range of doubles on either
side. -/
def exponentReach : Int := 400

/-- The double nearest to `number * 10 ^ exponent`, infinite beyond the finite doubles. A number
far outside their range is decided by its leading digit alone. -/
def nearest (number : Nat) (exponent : Int) : Float :=
  let leading := exponent + (Nat.toDigits 10 number).length - 1
  if number = 0 || leading < -exponentReach then
    0.0
  else if exponentReach < leading then
    1.0 / 0.0
  else
    Float.ofScientific number (exponent < 0) exponent.natAbs

/-- A double with the given sign in front of it. A negative zero keeps its sign. -/
def signed (negative : Bool) (value : Float) : Float :=
  if negative then -value else value

/-- The sign in front of a text and the text behind it. Without a sign the text is positive. -/
def splitSign : List Char → Bool × List Char
  | '-' :: rest => (true, rest)
  | '+' :: rest => (false, rest)
  | text => (false, text)

/-- Single underscores are legal between two digits; `previous` is the character before the
text. -/
def underscoresSeparateDigits (previous : Option Char) : List Char → Bool
  | [] => previous != some '_'
  | '_' :: rest =>
    (previous.any Char.isDigit) && underscoresSeparateDigits (some '_') rest
  | character :: rest =>
    (previous != some '_' || character.isDigit) && underscoresSeparateDigits (some character) rest

/-- A text with the decimal digits of every script as plain digits. -/
def plainDigits (text : List Char) : List Char :=
  text.map fun character =>
    match Text.digitValue? character with
    | some value => Char.ofNat (48 + value)
    | none => character

/-- A number's characters without its separating underscores, or nothing when an underscore
stands anywhere but between two digits. -/
def withoutSeparators? (text : List Char) : Option (List Char) :=
  if underscoresSeparateDigits none text then some (text.filter (· != '_')) else none

/-- The natural number spelt by plain digits. -/
def natOfPlain (digits : List Char) : Nat :=
  digits.foldl (fun number digit => number * 10 + (digit.toNat - 48)) 0

/-- An exponent mark with its signed digits, or nothing at all. -/
def readExponent? : List Char → Option Int
  | [] => some 0
  | mark :: rest =>
    let (negative, digits) := splitSign rest
    if (mark = 'e' || mark = 'E') && !digits.isEmpty && digits.all Char.isDigit then
      some (if negative then -(natOfPlain digits : Int) else natOfPlain digits)
    else
      none

/-- Digits with at most one point, at least one digit, and an exponent. -/
def readUnsigned? (text : List Char) : Option Float :=
  let whole := text.takeWhile Char.isDigit
  let behindWhole := text.dropWhile Char.isDigit
  let (fraction, rest) :=
    match behindWhole with
    | '.' :: behindPoint => (behindPoint.takeWhile Char.isDigit, behindPoint.dropWhile Char.isDigit)
    | _ => ([], behindWhole)
  if whole.isEmpty && fraction.isEmpty then
    none
  else
    (readExponent? rest).map fun exponent =>
      nearest (natOfPlain (whole ++ fraction)) (exponent - fraction.length)

/-- A word for infinity or the undefined value, in any case. -/
def readWord? (text : List Char) : Option Float :=
  let word := String.ofList (text.map Char.toLower)
  if word = "inf" || word = "infinity" then some (1.0 / 0.0)
  else if word = "nan" then some (0.0 / 0.0)
  else none

/-- The double that a text spells, blanks around it aside. -/
def readFloat? (text : List Char) : Option Float := do
  let characters ← withoutSeparators? (plainDigits (Text.trimNumber text))
  let (negative, unsigned) := splitSign characters
  let value ← (readWord? unsigned <|> readUnsigned? unsigned)
  return signed negative value

/-- The most digits an integer may be spelt with. -/
def integerDigitLimit : Nat := 4300

/-- Why a text of digits is no integer. -/
inductive IntegerFault where
  /-- It has more digits than are read. -/
  | tooManyDigits (count : Nat)
  /-- A character looks like a digit but has no decimal value. -/
  | notDecimal (text : List Char)
deriving DecidableEq

/-- The most characters of a quoted text that a message about an integer shows. -/
def shownOfQuoted : Nat := 200

/-- The text of an integer fault. -/
def IntegerFault.message : IntegerFault → String
  | .tooManyDigits count =>
    "Exceeds the limit (4300 digits) for integer string conversion: value has "
      ++ toString count ++ " digits; use sys.set_int_max_str_digits() to increase the limit"
  | .notDecimal text =>
    "invalid literal for int() with base 10: "
      ++ String.ofList ((Text.quoted text).take shownOfQuoted)

/-- The integer that digits of any script spell behind a sign. Leading zeros count towards the
limit, the sign does not. The limit is checked on the digits in front of the first character
without a decimal value. -/
def integerOfDigits (negative : Bool) (digits : List Char) : Except IntegerFault Int :=
  let count := (digits.takeWhile fun digit => (Text.digitValue? digit).isSome).length
  if integerDigitLimit < count then
    .error (.tooManyDigits count)
  else
    match Text.natOfDigits? digits with
    | none => .error (.notDecimal digits)
    | some number => .ok (if negative then -(number : Int) else number)

/-- The integer that a text spells, blanks around it aside: a sign, then digits of any script with
single underscores between them. -/
def readInteger? (text : List Char) : Option Int := do
  let characters ← withoutSeparators? (plainDigits (Text.trimNumber text))
  let (negative, digits) := splitSign characters
  if digits.isEmpty || !digits.all Char.isDigit then
    none
  else
    (integerOfDigits negative digits).toOption

end SpringArm.Decimal
