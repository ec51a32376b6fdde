import SpringArm.Expansion.Scan
import SpringArm.Limits
import SpringArm.Notice

/-!
# Expansion

A seed expanded into a construction text. If the text gets longer than its limit allows, a fixed
text stands for it and the problems found so far are kept. If more loops are open at once than the
limits leave room for, there is no expansion and the problems are lost.
-/

namespace SpringArm.Expansion

/-- So many loops may be entered beyond those of the seed if rules write loops of their own, because
such rules need not come to an end. -/
def loopReserve : Nat := 10000000

/-- How many loops an expansion may enter. Where no rule writes an opening parenthesis every loop
was opened in the seed. -/
def loopAllowance (rules : List Rule) (seed : List Char) : Nat :=
  seed.count '(' +
    if rules.any fun rule => rule.replacement.contains '(' then loopReserve else 0

/-- How the expansion of a seed ends in which so many loops may be open at once, with or without a
limit on its length. -/
def ending (rules : List Rule) (deepest : Nat) (limit : Option Int) (seed : List Char) : Ending :=
  (Scan.start deepest (loopAllowance rules seed) seed).run rules limit

/-- Why a seed has no expansion. -/
inductive ExpansionFault where
  /-- The count of a loop is no number. -/
  | badCount (fault : Decimal.IntegerFault)
  /-- The rules open loops without end. -/
  | endless
  /-- There is no room for so many loops in each other. -/
  | tooDeep
deriving DecidableEq

/-- The text of an expansion fault. -/
def ExpansionFault.message : ExpansionFault → String
  | .badCount fault => fault.message
  | .endless => "The rules open loops without end."
  | .tooDeep => "maximum recursion depth exceeded"

/-- An expanded text with the problems of the seed. -/
structure Expanded where
  text : List Char
  problems : List Problem
deriving DecidableEq

/-- Expands a seed. Without a seed the empty text is expanded. -/
def expand (rules : List Rule) (limits : Limits) (seed : Option (List Char)) :
    Logged (Except ExpansionFault Expanded) :=
  match ending rules limits.deepestNesting (some limits.longestExpansion) (seed.getD []) with
  | .complete text problems => ⟨.ok ⟨text, problems⟩, []⟩
  | .overlong problems =>
    ⟨.ok ⟨limits.overlongText.toList, problems⟩, [.expansionStopped limits.longestExpansion]⟩
  | .badCount fault => ⟨.error (.badCount fault), []⟩
  | .endless => ⟨.error .endless, []⟩
  | .tooDeep => ⟨.error .tooDeep, []⟩

section Endings

variable {rules : List Rule} (limits : Limits) (seed : Option (List Char))

theorem expand_of_complete {text : List Char} {problems : List Problem}
    (ends : ending rules limits.deepestNesting (some limits.longestExpansion) (seed.getD []) =
      .complete text problems) : expand rules limits seed = ⟨.ok ⟨text, problems⟩, []⟩ := by
  simp only [expand, ends]

theorem expand_of_overlong {problems : List Problem}
    (ends : ending rules limits.deepestNesting (some limits.longestExpansion) (seed.getD []) =
      .overlong problems) :
    expand rules limits seed = ⟨.ok ⟨limits.overlongText.toList, problems⟩,
      [.expansionStopped limits.longestExpansion]⟩ := by
  simp only [expand, ends]

theorem expand_of_badCount {fault : Decimal.IntegerFault}
    (ends : ending rules limits.deepestNesting (some limits.longestExpansion) (seed.getD []) =
      .badCount fault) : expand rules limits seed = ⟨.error (.badCount fault), []⟩ := by
  simp only [expand, ends]

end Endings

end SpringArm.Expansion
