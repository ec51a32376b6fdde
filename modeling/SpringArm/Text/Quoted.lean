import SpringArm.Text.Printable

/-!
# Quoted

Texts and lists of texts as they stand in messages: between single quotes, or between double
quotes when the text holds a single quote and no double quote. The quote in use, the backslash,
tab, line feed and carriage return are escaped by a backslash, and every other character that
is not printable by its code in lower-case hexadecimal digits.
-/

namespace SpringArm.Text

/-- The last `width` hexadecimal digits of a number, in lower case. -/
def hexDigits (width number : Nat) : List Char :=
  let digits := Nat.toDigits 16 number
  List.replicate (width - digits.length) '0' ++ digits

/-- A character by its code: two, four or eight digits behind `x`, `u` or `U`. -/
def codeEscape (character : Char) : List Char :=
  let code := character.toNat
  if code < 0x100 then
    '\\' :: 'x' :: hexDigits 2 code
  else if code < 0x10000 then
    '\\' :: 'u' :: hexDigits 4 code
  else
    '\\' :: 'U' :: hexDigits 8 code

/-- A character inside a text with the given quotes. -/
def quotedCharacter (quote character : Char) : List Char :=
  if character = quote || character = '\\' then ['\\', character]
  else if character = '\t' then ['\\', 't']
  else if character = '\n' then ['\\', 'n']
  else if character = '\r' then ['\\', 'r']
  else if isPrintable character then [character]
  else codeEscape character

/-- The quote for a text: double only if the text holds a single quote and no double one. -/
def quoteFor (text : List Char) : Char :=
  if text.contains '\'' && !text.contains '"' then '"' else '\''

/-- A text between quotes. -/
def quoted (text : List Char) : List Char :=
  let quote := quoteFor text
  quote :: text.flatMap (quotedCharacter quote) ++ [quote]

/-- Texts between quotes, separated by a comma and a space, in square brackets. -/
def quotedList (texts : List (List Char)) : List Char :=
  '[' :: [',', ' '].intercalate (texts.map quoted) ++ [']']

end SpringArm.Text
