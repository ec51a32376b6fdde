import SpringArm.Draws.Scripted
import SpringArm.Draws.Seeded

/-!
# Stream

Draws from either of the two sources, chosen when a program starts.
-/

namespace SpringArm

/-- A seed is negative. -/
inductive SeedFault where
  | negative
deriving DecidableEq

/-- The text of a seed fault. -/
def SeedFault.message : SeedFault → String
  | .negative => "expected non-negative integer"

/-- The draws of a seed that must not be negative. -/
def drawsOfSeed? {γ : Type} (seeded : Nat → γ) (seed : Int) : Except SeedFault γ :=
  if seed < 0 then .error .negative else .ok (seeded seed.toNat)

/-- A source of one of the two kinds. -/
inductive DrawStream where
  | seeded (draws : SeededDraws)
  | scripted (draws : ScriptedDraws)

namespace DrawStream

instance : Draws DrawStream where
  unit
    | .seeded draws => (Draws.unit draws).map id .seeded
    | .scripted draws => (Draws.unit draws).map id .scripted
  below size positive
    | .seeded draws => (Draws.below size positive draws).map id .seeded
    | .scripted draws => (Draws.below size positive draws).map id .scripted

/-- Which source a caller asks for. -/
inductive Choice where
  /-- The generator of the usual seed. -/
  | usual
  /-- The generator of a seed. -/
  | seed (seed : Int)
  /-- A list of numbers. -/
  | script (numbers : Array Float)

/-- The source that was asked for. -/
def ofChoice (usualSeed : Int) : Choice → Except SeedFault DrawStream
  | .usual => (drawsOfSeed? SeededDraws.ofSeed usualSeed).map seeded
  | .seed seed => (drawsOfSeed? SeededDraws.ofSeed seed).map seeded
  | .script numbers => .ok (scripted ⟨numbers, 0⟩)

/-- How many numbers of a written list were used, if the source is one. -/
def used? : DrawStream → Option Nat
  | .seeded _ => none
  | .scripted draws => some draws.used

end DrawStream

end SpringArm
