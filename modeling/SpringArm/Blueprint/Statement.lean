import SpringArm.Blueprint.Basic
import SpringArm.Decimal.Reading

/-!
# Statement

The lines of a description. A line is blanks, a keyword, the keyword's items, each behind at least
one blank, and blanks. `Statement.read` recognises a line and keeps its items as they are spelt;
what they stand for is worked out from the statement. Here a blank is a space or a tab, letters
and digits are ASCII, and nothing else may stand on the line.
-/

namespace SpringArm

/-- The masses that a description places. -/
inductive Part where
  | shoulder
  | elbow
  | hand
  | input
deriving DecidableEq

namespace Part

/-- The kind of a part. -/
def kind : Part → MassKind
  | shoulder => .shoulder
  | elbow => .elbow
  | hand => .hand
  | input => .input

end Part

/-- What a letter of a construction text makes, or what is added at random. -/
inductive Product where
  | mass
  | spring
deriving DecidableEq

/-- The keywords of a description. -/
inductive Keyword where
  | place (part : Part)
  | window
  | create (product : Product)
  | options
  | rules
  | random (product : Product)
deriving DecidableEq

namespace Keyword

/-- All keywords. -/
def all : List Keyword :=
  [place .shoulder, place .elbow, place .hand, place .input, window, create .mass, create .spring,
   options, rules, random .mass, random .spring]

/-- The spelling of a keyword. -/
def spelling : Keyword → String
  | place .shoulder => "shoulder"
  | place .elbow => "elbow"
  | place .hand => "hand"
  | place .input => "input"
  | window => "expansionRangeX"
  | create .mass => "createMass"
  | create .spring => "createSpring"
  | options => "options"
  | rules => "productionRules"
  | random .mass => "randomMasses"
  | random .spring => "randomSprings"

/-- The keyword with a spelling. -/
def ofSpelling? (word : List Char) : Option Keyword :=
  all.find? fun keyword => keyword.spelling.toList = word

end Keyword

/-- A number as it is spelt: a minus sign, digits, and digits behind a point. -/
structure Numeral where
  negative : Bool
  whole : List Char
  fraction : Option (List Char)
deriving DecidableEq

/-- The double that a number stands for. -/
def Numeral.value (numeral : Numeral) : Float :=
  let fraction := numeral.fraction.getD []
  Decimal.signed numeral.negative
    (Decimal.nearest (Decimal.natOfPlain (numeral.whole ++ fraction)) (-(fraction.length : Int)))

/-- A count as it is spelt: a minus sign and digits. -/
structure Count where
  negative : Bool
  digits : List Char
deriving DecidableEq

/-- The integer that a count stands for. -/
def Count.value (count : Count) : Except Decimal.IntegerFault Int :=
  Decimal.integerOfDigits count.negative count.digits

/-- The two numbers of a place. -/
structure Coordinates where
  x : Numeral
  y : Numeral
deriving DecidableEq

/-- The two numbers of an interval. -/
structure Bounds where
  low : Numeral
  high : Numeral
deriving DecidableEq

/-- The interval between two numbers. -/
def Bounds.interval (bounds : Bounds) : Interval :=
  ⟨bounds.low.value, bounds.high.value⟩

/-- A line of a description. -/
inductive Statement where
  /-- Places of a part. Only the first of them is used. -/
  | place (part : Part) (first : Coordinates) (more : List Coordinates)
  | window (bounds : Bounds)
  | create (product : Product) (letter : Char) (bounds : Bounds)
  | options (words : List (List Char))
  | rules (rules : List Rule)
  | random (product : Product) (count : Count)
deriving DecidableEq

namespace Statement

/-- The keyword of a statement. -/
def keyword : Statement → Keyword
  | place part .. => .place part
  | window _ => .window
  | create product .. => .create product
  | options _ => .options
  | rules _ => .rules
  | random product _ => .random product

/-- A blank of a line. -/
def isGap (character : Char) : Bool :=
  character == ' ' || character == '\t'

/-- A text without the blanks at its start. -/
def skipGaps (text : List Char) : List Char :=
  text.dropWhile isGap

/-- A text ends here or goes on with a blank. -/
def endsItem (text : List Char) : Bool :=
  text.head?.all isGap

/-- The longest pieces of a text without blanks. -/
def words : List Char → List (List Char)
  | [] => []
  | [character] => if isGap character then [] else [[character]]
  | character :: next :: rest =>
    if isGap character then words (next :: rest)
    else if isGap next then [character] :: words (next :: rest)
    else
      match words (next :: rest) with
      | [] => [[character]]
      | word :: others => (character :: word) :: others

/-- The rest of a text behind an expected character. -/
def expect (expected : Char) : List Char → Option (List Char)
  | [] => none
  | character :: rest => if character = expected then some rest else none

/-- A minus sign in front of a text, and the text behind it. -/
def splitMinus : List Char → Bool × List Char
  | '-' :: rest => (true, rest)
  | text => (false, text)

/-- The number at the start of a text, with as many digits as there are. -/
def readNumeral (text : List Char) : Option (Numeral × List Char) :=
  let (negative, unsigned) := splitMinus text
  let whole := unsigned.takeWhile Char.isDigit
  if whole.isEmpty then
    none
  else
    match unsigned.dropWhile Char.isDigit with
    | '.' :: behindPoint =>
      let fraction := behindPoint.takeWhile Char.isDigit
      some (⟨negative, whole, some fraction⟩, behindPoint.dropWhile Char.isDigit)
    | rest => some (⟨negative, whole, none⟩, rest)

/-- The number that a whole word spells. -/
def numeralOfWord? (word : List Char) : Option Numeral :=
  match readNumeral word with
  | some (numeral, []) => some numeral
  | _ => none

/-- The count that a whole word spells. -/
def countOfWord? (word : List Char) : Option Count :=
  let (negative, digits) := splitMinus word
  if !digits.isEmpty && digits.all Char.isDigit then some ⟨negative, digits⟩ else none

/-- The places that words spell two by two. -/
def coordinatesOfWords? : List (List Char) → Option (List Coordinates)
  | [] => some []
  | [_] => none
  | first :: second :: rest => do
    let x ← numeralOfWord? first
    let y ← numeralOfWord? second
    let others ← coordinatesOfWords? rest
    return ⟨x, y⟩ :: others

/-- Two numbers in square brackets with a comma between them. -/
def readBounds (text : List Char) : Option (Bounds × List Char) := do
  let text ← expect '[' text
  let (low, text) ← readNumeral (skipGaps text)
  let text ← expect ',' (skipGaps text)
  let (high, text) ← readNumeral (skipGaps text)
  let text ← expect ']' (skipGaps text)
  return (⟨low, high⟩, text)

/-- The bounds that a whole text spells, blanks around them aside. -/
def boundsOf? (text : List Char) : Option Bounds := do
  let (bounds, rest) ← readBounds (skipGaps text)
  if (skipGaps rest).isEmpty then some bounds else none

/-- A character of a rule's left side. -/
def isSearchCharacter (character : Char) : Bool :=
  character.isAlphanum || character == '_'

/-- A character of a rule's right side. -/
def isReplacementCharacter (character : Char) : Bool :=
  isSearchCharacter character || character == '-'

/-- The left side at the start of a text. It does not start with a digit. -/
def readSearch (text : List Char) : Option (List Char × List Char) :=
  match text.takeWhile isSearchCharacter with
  | [] => none
  | first :: more =>
    if first.isDigit then none else some (first :: more, text.dropWhile isSearchCharacter)

/-- The right side at the start of a text. -/
def readReplacement (text : List Char) : Option (List Char × List Char) :=
  match text.takeWhile isReplacementCharacter with
  | [] => none
  | first :: more => some (first :: more, text.dropWhile isReplacementCharacter)

/-- The rule at the start of a text: a left side, an arrow and a right side. -/
def readRule (text : List Char) : Option (Rule × List Char) := do
  let (search, text) ← readSearch text
  let text ← expect '-' (skipGaps text)
  let text ← expect '>' text
  let (replacement, text) ← readReplacement (skipGaps text)
  return (⟨search, replacement⟩, text)

private theorem length_dropWhile_le {α : Type} (test : α → Bool) (list : List α) :
    (list.dropWhile test).length ≤ list.length :=
  (List.dropWhile_suffix test).length_le

private theorem expect_length {expected : Char} {text rest : List Char}
    (found : expect expected text = some rest) : rest.length + 1 = text.length := by
  cases text with
  | nil => simp [expect] at found
  | cons character behind =>
    simp only [expect] at found
    split at found
    · simp_all
    · simp at found

private theorem readSearch_length {text search rest : List Char}
    (found : readSearch text = some (search, rest)) : rest.length ≤ text.length := by
  unfold readSearch at found
  split at found
  · simp at found
  · split at found
    · simp at found
    · simp only [Option.some.injEq, Prod.mk.injEq] at found
      rw [← found.2]
      exact length_dropWhile_le _ _

private theorem readReplacement_length {text replacement rest : List Char}
    (found : readReplacement text = some (replacement, rest)) : rest.length ≤ text.length := by
  unfold readReplacement at found
  split at found
  · simp at found
  · simp only [Option.some.injEq, Prod.mk.injEq] at found
    rw [← found.2]
    exact length_dropWhile_le _ _

/-- What is left behind a rule is shorter than the text it was read from. -/
theorem readRule_length {text rest : List Char} {rule : Rule}
    (found : readRule text = some (rule, rest)) : rest.length < text.length := by
  unfold readRule at found
  simp only [Option.bind_eq_bind, Option.bind_eq_some_iff, Prod.exists] at found
  obtain ⟨search, behindSearch, searchFound, behindDash, dashFound, behindArrow, arrowFound,
    replacement, behindReplacement, replacementFound, final⟩ := found
  simp only [Option.pure_def, Option.some.injEq, Prod.mk.injEq] at final
  rw [← final.2]
  have searchLength := readSearch_length searchFound
  have dashLength := expect_length dashFound
  have arrowLength := expect_length arrowFound
  have replacementLength := readReplacement_length replacementFound
  have gapsLength := length_dropWhile_le isGap behindSearch
  have moreGapsLength := length_dropWhile_le isGap behindArrow
  simp only [skipGaps] at dashLength replacementLength
  omega

private theorem readRule_length_of_skipGaps {text body rest : List Char} {rule : Rule}
    (gapless : skipGaps text = body) (found : readRule body = some (rule, rest)) :
    rest.length < text.length := by
  have shorter := readRule_length found
  have bound := length_dropWhile_le isGap text
  rw [skipGaps] at gapless
  rw [gapless] at bound
  omega

/-- The rules that a whole text spells, each behind the end of the one before it. -/
def rulesOf? (text : List Char) : Option (List Rule) :=
  match gapless : skipGaps text with
  | [] => some []
  | first :: more =>
    match found : readRule (first :: more) with
    | none => none
    | some (rule, rest) =>
      have _shorter := readRule_length_of_skipGaps gapless found
      if endsItem rest then (rulesOf? rest).map (rule :: ·) else none
termination_by text.length

/-- The letter and the bounds that a whole text spells. -/
def templateOf? (text : List Char) : Option (Char × Bounds) :=
  match skipGaps text with
  | [] => none
  | letter :: rest =>
    if letter.isAlpha && !rest.isEmpty && endsItem rest then
      (boundsOf? rest).map (letter, ·)
    else
      none

/-- The statement with a keyword and the text behind it. -/
def ofKeyword? (keyword : Keyword) (text : List Char) : Option Statement :=
  match keyword with
  | .place part =>
    match coordinatesOfWords? (words text) with
    | some (first :: more) => some (place part first more)
    | _ => none
  | .window => (boundsOf? text).map window
  | .create product => (templateOf? text).map fun (letter, bounds) => create product letter bounds
  | .options =>
    match words text with
    | [] => none
    | named => if named.all (·.all Char.isAlpha) then some (options named) else none
  | .rules =>
    match rulesOf? text with
    | some (first :: more) => some (rules (first :: more))
    | _ => none
  | .random product =>
    match words text with
    | [word] => (countOfWord? word).map (random product)
    | _ => none

/-- The statement that a line spells. -/
def read (line : List Char) : Option Statement := do
  let text := skipGaps line
  let keyword ← Keyword.ofSpelling? (text.takeWhile (!isGap ·))
  ofKeyword? keyword (text.dropWhile (!isGap ·))

end Statement

end SpringArm
