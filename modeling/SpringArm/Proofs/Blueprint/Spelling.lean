import SpringArm.Proofs.Blueprint.Rules

/-!
# How statements are spelt

The grammar of the lines of a description, as relations between an item and its texts: `Spells`
holds of every way to write an item down and says nothing about how it is read. A line consists of
blanks, a keyword, the items of the keyword with at least one blank in front of each of them, and
blanks.
-/

namespace SpringArm

/-- A text of blanks. It may be empty. -/
def Gaps (text : List Char) : Prop :=
  ∀ character ∈ text, Statement.isGap character = true

/-- At least one blank. -/
def Separator (text : List Char) : Prop :=
  text ≠ [] ∧ Gaps text

/-- A text of digits. It may be empty. -/
def Digits (text : List Char) : Prop :=
  ∀ character ∈ text, character.isDigit = true

/-- The sign in front of a number. -/
def minusSign (negative : Bool) : List Char :=
  if negative then ['-'] else []

namespace Numeral

/-- The text of a number. -/
def text (numeral : Numeral) : List Char :=
  minusSign numeral.negative ++ (numeral.whole ++ numeral.fraction.elim [] ('.' :: ·))

/-- A number has at least one digit, and there may be none behind its point. -/
structure Legal (numeral : Numeral) : Prop where
  nonempty : numeral.whole ≠ []
  whole : Digits numeral.whole
  fraction : ∀ digits ∈ numeral.fraction, Digits digits

/-- A number is written in one way. -/
def Spells (numeral : Numeral) (text : List Char) : Prop :=
  numeral.Legal ∧ text = numeral.text

end Numeral

/-- A count is a sign and at least one digit. -/
def Count.Spells (count : Count) (text : List Char) : Prop :=
  count.digits ≠ [] ∧ Digits count.digits ∧ text = minusSign count.negative ++ count.digits

/-- A place is two numbers with at least one blank between them. -/
def Coordinates.Spells (place : Coordinates) (text : List Char) : Prop :=
  ∃ first gap second, place.x.Spells first ∧ Separator gap ∧ place.y.Spells second ∧
    text = first ++ (gap ++ second)

/-- Bounds are two numbers in brackets with a comma between them. Blanks may stand around the
numbers. -/
def Bounds.Spells (bounds : Bounds) (text : List Char) : Prop :=
  ∃ beforeLow low behindLow beforeHigh high behindHigh,
    Gaps beforeLow ∧ bounds.low.Spells low ∧ Gaps behindLow ∧
    Gaps beforeHigh ∧ bounds.high.Spells high ∧ Gaps behindHigh ∧
    text = '[' :: (beforeLow ++ (low ++ (behindLow ++ ',' ::
      (beforeHigh ++ (high ++ (behindHigh ++ [']']))))))

/-- The left side of a rule is an identifier. -/
def IsIdentifier (word : List Char) : Prop :=
  word ≠ [] ∧ (∀ character ∈ word, Statement.isSearchCharacter character = true) ∧
    ∀ first ∈ word.head?, first.isDigit = false

/-- A rule is an identifier, an arrow and a right side. Blanks may stand around the arrow. -/
def Rule.Spells (rule : Rule) (text : List Char) : Prop :=
  IsIdentifier rule.search ∧ rule.Spelt ∧ ∃ before behind, Gaps before ∧ Gaps behind ∧
    text = rule.search ++ (before ++ '-' :: '>' :: (behind ++ rule.replacement))

/-- A word of an options line is made of letters. -/
def SpellsOption (word text : List Char) : Prop :=
  word ≠ [] ∧ (∀ character ∈ word, character.isAlpha = true) ∧ text = word

/-- Items one after the other, with at least one blank in front of each of them. -/
inductive Listed {α : Type} (spells : α → List Char → Prop) : List α → List Char → Prop
  | nil : Listed spells [] []
  | cons {gap text rest : List Char} {item : α} {items : List α} (separator : Separator gap)
      (first : spells item text) (others : Listed spells items rest) :
      Listed spells (item :: items) (gap ++ (text ++ rest))

namespace Statement

/-- The text of a statement behind its keyword. -/
inductive Body : Statement → List Char → Prop
  | place {part : Part} {first : Coordinates} {more : List Coordinates} {text : List Char}
      (listed : Listed Coordinates.Spells (first :: more) text) : Body (place part first more) text
  | window {bounds : Bounds} {gap text : List Char} (separator : Separator gap)
      (spelt : bounds.Spells text) : Body (window bounds) (gap ++ text)
  | create {product : Product} {letter : Char} {bounds : Bounds} {gap between text : List Char}
      (separator : Separator gap) (isLetter : letter.isAlpha = true)
      (parted : Separator between) (spelt : bounds.Spells text) :
      Body (create product letter bounds) (gap ++ letter :: (between ++ text))
  | options {words : List (List Char)} {text : List Char} (nonempty : words ≠ [])
      (listed : Listed SpellsOption words text) : Body (options words) text
  | rules {spelt : List Rule} {text : List Char} (nonempty : spelt ≠ [])
      (listed : Listed Rule.Spells spelt text) : Body (rules spelt) text
  | random {product : Product} {count : Count} {gap text : List Char} (separator : Separator gap)
      (spelt : count.Spells text) : Body (random product count) (gap ++ text)

/-- A line spells a statement. -/
def Spells (statement : Statement) (line : List Char) : Prop :=
  ∃ before body behind, Gaps before ∧ statement.Body body ∧ Gaps behind ∧
    line = before ++ (statement.keyword.spelling.toList ++ (body ++ behind))

end Statement

/-- A line belongs to a keyword if it spells a statement with this keyword. -/
def Keyword.Spells (keyword : Keyword) (line : List Char) : Prop :=
  ∃ statement : Statement, statement.keyword = keyword ∧ statement.Spells line

end SpringArm
