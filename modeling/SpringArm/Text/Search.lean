import SpringArm.Text.Blank

/-!
# Search

Items found anywhere in a text. A reader finds an item at the start of a text and returns what is
left behind it; a search tries it at every character that no item found before covers.
-/

namespace SpringArm.Text

/-- The items in a text of which the last item found still covers some characters. -/
def findAllFrom {α : Type} (readItem : List Char → Option (α × List Char)) :
    Nat → List Char → List α
  | _, [] => []
  | covered + 1, _ :: more => findAllFrom readItem covered more
  | 0, character :: more =>
    match readItem (character :: more) with
    | none => findAllFrom readItem 0 more
    | some (item, rest) => item :: findAllFrom readItem (more.length - rest.length) more

/-- All items in a text, from left to right. -/
def findAll {α : Type} (readItem : List Char → Option (α × List Char)) (text : List Char) :
    List α :=
  findAllFrom readItem 0 text

/-- The characters at the start of a text up to a blank one. -/
def readPiece (text : List Char) : Option (List Char × List Char) :=
  match text.takeWhile (!isBlank ·) with
  | [] => none
  | first :: more => some (first :: more, text.dropWhile (!isBlank ·))

/-- The pieces of a text between its blanks. -/
def pieces (text : List Char) : List (List Char) :=
  findAll readPiece text

end SpringArm.Text
