/-!
# Blank

Blank characters, line breaks and the functions on texts that depend on them. Both sets reach
beyond ASCII; the zero-width space and the byte order mark belong to neither.
-/

namespace SpringArm.Text

/-- The closed ranges of the blank code points. -/
def blankRanges : List (Nat × Nat) :=
  [(0x0009, 0x000D), (0x001C, 0x0020), (0x0085, 0x0085), (0x00A0, 0x00A0), (0x1680, 0x1680),
   (0x2000, 0x200A), (0x2028, 0x2029), (0x202F, 0x202F), (0x205F, 0x205F), (0x3000, 0x3000)]

/-- A character is blank. -/
def isBlank (character : Char) : Bool :=
  blankRanges.any fun range => range.1 ≤ character.toNat && character.toNat ≤ range.2

/-- A text without its blanks at the start. -/
def trimStart (text : List Char) : List Char :=
  text.dropWhile isBlank

/-- A text without its last characters as long as they satisfy a test. -/
def dropEndWhile (drops : Char → Bool) (text : List Char) : List Char :=
  (text.reverse.dropWhile drops).reverse

/-- A text without its blanks at both ends. -/
def trim (text : List Char) : List Char :=
  dropEndWhile isBlank (trimStart text)

/-- A character that may stand around a number: any blank but the four separators of records. -/
def isNumberBlank (character : Char) : Bool :=
  isBlank character && !(0x001C ≤ character.toNat && character.toNat ≤ 0x001F)

/-- The text of a number without the blanks that may stand around it. -/
def trimNumber (text : List Char) : List Char :=
  dropEndWhile isNumberBlank (text.dropWhile isNumberBlank)

/-- A text that holds nothing but blanks. -/
def isBlankText (text : List Char) : Bool :=
  text.all isBlank

/-- A text whose first character that is not blank is the comment sign. -/
def isComment (text : List Char) : Bool :=
  (trimStart text).head? == some '#'

/-- A line that carries data: it is neither blank nor a comment. -/
def carriesData (line : List Char) : Bool :=
  !isBlankText line && !isComment line

/-- The pieces of a text between its line feeds. A text without a line feed is one piece. -/
def splitLineFeeds : List Char → List (List Char)
  | [] => [[]]
  | '\n' :: rest => [] :: splitLineFeeds rest
  | character :: rest =>
    match splitLineFeeds rest with
    | [] => [[character]]
    | line :: lines => (character :: line) :: lines

/-- The code points that end a line of a data table. -/
def lineBreakRanges : List (Nat × Nat) :=
  [(0x000A, 0x000D), (0x001C, 0x001E), (0x0085, 0x0085), (0x2028, 0x2029)]

/-- A character ends a line of a data table. -/
def isLineBreak (character : Char) : Bool :=
  lineBreakRanges.any fun range => range.1 ≤ character.toNat && character.toNat ≤ range.2

/-- The lines of a data table, without their ends. A carriage return with a line feed behind it is
one end, and no empty line follows the last end. The first argument holds the characters of the
current line, latest first. -/
def tableLinesFrom : List Char → List Char → List (List Char)
  | [], [] => []
  | line, [] => [line.reverse]
  | line, '\r' :: '\n' :: rest => line.reverse :: tableLinesFrom [] rest
  | line, character :: rest =>
    if isLineBreak character then
      line.reverse :: tableLinesFrom [] rest
    else
      tableLinesFrom (character :: line) rest

/-- The lines of a data table, without their ends. -/
def tableLines (text : List Char) : List (List Char) :=
  tableLinesFrom [] text

/-- A text with every carriage return, alone or before a line feed, as one line feed. -/
def unifyLineEnds : List Char → List Char
  | [] => []
  | '\r' :: '\n' :: rest => '\n' :: unifyLineEnds rest
  | '\r' :: rest => '\n' :: unifyLineEnds rest
  | character :: rest => character :: unifyLineEnds rest

end SpringArm.Text
