/-!
# Draws

A source of random decisions. All that growth asks of a source is a number between zero and one and
a choice among finitely many things; each answer comes with the source that gives the next one.
-/

namespace SpringArm

/-- A source of draws. -/
class Draws (γ : Type) where
  /-- A number of at least zero and below one. -/
  unit : γ → Float × γ
  /-- A number below a positive size. -/
  below : (size : Nat) → 0 < size → γ → Fin size × γ

namespace Draws

variable {γ : Type} [Draws γ]

/-- One of the items of a list that is not empty. -/
def choose {α : Type} (items : List α) (nonempty : 0 < items.length) (source : γ) : α × γ :=
  let (position, rest) := below items.length nonempty source
  (items[position], rest)

end Draws

end SpringArm
