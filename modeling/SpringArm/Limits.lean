import SpringArm.Geometry.Segment

/-!
# Limits

The limits and constants of expansion and growth.
-/

namespace SpringArm

/-- The limits of expansion and growth, with their usual values. -/
structure Limits where
  /-- An expansion may hold at most so many characters. -/
  longestExpansion : Int := 1000
  /-- What stands for an expansion that has become too long. -/
  overlongText : String := "The output gets too long!"
  /-- So many loops of a seed may be open at once. Every open loop takes two calls, so the room is
  that of the stack of calls: the usual value is what a stack of a thousand leaves if the expansion
  is called first. -/
  deepestNesting : Nat := 498
  /-- So many pairs are drawn for random springs before giving up. -/
  springAttempts : Int := 1000
  /-- The chance that a random spring of a network mass leads to an input instead. -/
  inputChance : Float := 0.2
  /-- Ends of springs closer than this are the same point. -/
  endpointTolerance : Float := Geometry.endpointTolerance
  /-- The seed of the draws where none is given. -/
  defaultSeed : Int := 42

end SpringArm
