import SpringArm.Draws.Basic

/-!
# Scripted

Draws from a list written in advance, used in turn and over again. Every draw takes the next number
of the list, also a choice among one thing.
-/

namespace SpringArm

/-- A list of numbers with the count of those that were used. -/
structure ScriptedDraws where
  script : Array Float
  used : Nat

namespace ScriptedDraws

/-- The next number of the list. An empty list gives zeros. -/
def next (draws : ScriptedDraws) : Float × ScriptedDraws :=
  ((draws.script[draws.used % draws.script.size]?).getD 0.0, { draws with used := draws.used + 1 })

/-- The number below a size that a number between zero and one stands for. -/
def scale (size : Nat) (positive : 0 < size) (number : Float) : Fin size :=
  let index := (number * size.toFloat).floor.toUInt64.toNat
  if inside : index < size then ⟨index, inside⟩ else ⟨size - 1, Nat.sub_lt positive Nat.one_pos⟩

instance : Draws ScriptedDraws where
  unit := next
  below size positive draws :=
    let (number, rest) := draws.next
    (scale size positive number, rest)

end ScriptedDraws

end SpringArm
