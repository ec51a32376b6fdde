import SpringArm.Draws.Basic

/-!
# Seeded

Draws that are reproducible from a seed. The words of the seed are mixed into a pool of four words,
the pool is stretched to the start of a linear congruential generator on 128 bits, and every step
of that generator is folded to 64 bits by an exclusive or and a rotation. Numbers of 32 bits are
taken two by two from one output, the upper half being kept for the next request.
-/

namespace SpringArm

namespace SeedMixing

/-- The words of a natural number in base `2 ^ 32`, least significant first; zero has one word. -/
def wordsOf (number : Nat) : List UInt32 :=
  let word := UInt32.ofNat (number % UInt32.size)
  if more : number < UInt32.size then
    [word]
  else
    have : number / UInt32.size < number :=
      Nat.div_lt_self (Nat.lt_of_lt_of_le (by decide) (Nat.le_of_not_lt more)) (by decide)
    word :: wordsOf (number / UInt32.size)

/-- The multiplier that changes from word to word, and the word hashed with it. -/
def hashWord (multiplierStep multiplier word : UInt32) : UInt32 × UInt32 :=
  let stepped := multiplier * multiplierStep
  let product := (word ^^^ multiplier) * stepped
  (stepped, product ^^^ (product >>> 16))

/-- The first multiplier for words that enter the pool, and its step. -/
def poolStart : UInt32 := 0x43b0d7e5

/-- The step of the multiplier for words that enter the pool. -/
def poolStep : UInt32 := 0x931e8875

/-- The first multiplier for words that leave the pool. -/
def outputStart : UInt32 := 0x8b51f9dd

/-- The step of the multiplier for words that leave the pool. -/
def outputStep : UInt32 := 0x58f38ded

/-- A word of the pool mixed with another word. -/
def mixWords (first second : UInt32) : UInt32 :=
  let mixed := 0xca01f9dd * first - 0x4973f715 * second
  mixed ^^^ (mixed >>> 16)

/-- The pool with the multiplier for the next word. -/
structure Pool where
  multiplier : UInt32
  words : Vector UInt32 4

namespace Pool

/-- The pool of the first four words of a seed. -/
def fill (seed : List UInt32) : Pool :=
  (List.finRange 4).foldl
    (fun pool (position : Fin 4) =>
      let (multiplier, hashed) := hashWord poolStep pool.multiplier (seed.getD position.val 0)
      ⟨multiplier, pool.words.set position hashed⟩)
    ⟨poolStart, Vector.replicate 4 0⟩

/-- Mixes a freshly hashed word into one place of the pool. -/
def mixInto (pool : Pool) (position : Fin 4) (word : UInt32) : Pool :=
  let (multiplier, hashed) := hashWord poolStep pool.multiplier word
  ⟨multiplier, pool.words.set position (mixWords pool.words[position] hashed)⟩

/-- Mixes every word of the pool into all others. -/
def stir (pool : Pool) : Pool :=
  (List.finRange 4).foldl
    (fun stirred source =>
      ((List.finRange 4).filter (· != source)).foldl
        (fun mixed position => mixed.mixInto position mixed.words[source]) stirred)
    pool

/-- Mixes a further word of the seed into all places. -/
def absorb (pool : Pool) (word : UInt32) : Pool :=
  (List.finRange 4).foldl (fun mixed position => mixed.mixInto position word) pool

/-- The pool of a seed. -/
def ofSeed (seed : List UInt32) : Pool :=
  (seed.drop 4).foldl absorb (fill seed).stir

/-- The pool read round and round for so many words. -/
def output (pool : Pool) (count : Nat) : List UInt32 :=
  ((List.range count).foldl
    (fun (multiplier, words) index =>
      let source := pool.words.get ⟨index % 4, Nat.mod_lt index (by decide)⟩
      let (stepped, hashed) := hashWord outputStep multiplier source
      (stepped, words ++ [hashed]))
    (outputStart, [])).2

end Pool

/-- Words of 32 bits joined two by two, the first of two being the lower half. -/
def joinHalves : List UInt32 → List Nat
  | low :: high :: rest => (low.toNat + high.toNat * UInt32.size) :: joinHalves rest
  | _ => []

end SeedMixing

/-- The state of the generator: 128 bits, the increment of its steps, and the half of an output that
is kept. -/
structure SeededDraws where
  state : Nat
  increment : Nat
  kept : Option Nat
deriving DecidableEq

namespace SeededDraws

/-- The multiplier of a step. -/
def multiplier : Nat := 0x2360ed051fc65da44385df649fccf645

/-- How many states there are. -/
def stateCount : Nat := UInt64.size * UInt64.size

/-- One step of the generator. -/
def advance (draws : SeededDraws) : SeededDraws :=
  { draws with state := (draws.state * multiplier + draws.increment) % stateCount }

/-- The generator that four words of 64 bits start: two for the state, two for the increment. -/
def start (stateHigh stateLow incrementHigh incrementLow : Nat) : SeededDraws :=
  let increment := ((incrementHigh * UInt64.size + incrementLow) * 2 + 1) % stateCount
  let first := (SeededDraws.mk 0 increment none).advance
  let offset := (first.state + stateHigh * UInt64.size + stateLow) % stateCount
  { first with state := offset }.advance

/-- The generator of a seed. -/
def ofSeed (seed : Nat) : SeededDraws :=
  match SeedMixing.joinHalves ((SeedMixing.Pool.ofSeed (SeedMixing.wordsOf seed)).output 8) with
  | [stateHigh, stateLow, incrementHigh, incrementLow] =>
    start stateHigh stateLow incrementHigh incrementLow
  | _ => start 0 0 0 0

/-- A word of 64 bits rotated to the right. -/
def rotateRight (word amount : Nat) : Nat :=
  (word >>> amount) ||| ((word <<< (64 - amount)) % UInt64.size)

/-- The next 64 bits. -/
def nextWide (draws : SeededDraws) : Nat × SeededDraws :=
  let advanced := draws.advance
  let folded := (advanced.state >>> 64) ^^^ (advanced.state % UInt64.size)
  (rotateRight folded (advanced.state >>> 122), advanced)

/-- The next 32 bits: the kept half if there is one, otherwise the lower half of the next 64. -/
def nextHalf (draws : SeededDraws) : Nat × SeededDraws :=
  match draws.kept with
  | some half => (half, { draws with kept := none })
  | none =>
    let (wide, rest) := draws.nextWide
    (wide % UInt32.size, { rest with kept := some (wide >>> 32) })

/-- The next number between zero and one: 53 of the next 64 bits. The kept half stays. -/
def nextUnit (draws : SeededDraws) : Float × SeededDraws :=
  let (wide, rest) := draws.nextWide
  ((wide >>> 11).toFloat / (1 <<< 53 : Nat).toFloat, rest)

/-- Draws 32 bits again as long as their product with the size leaves a remainder below the
threshold, but at most so many times. -/
def redraw (size threshold : Nat) : Nat → Nat → SeededDraws → Nat × SeededDraws
  | 0, product, draws => (product, draws)
  | tries + 1, product, draws =>
    if product % UInt32.size < threshold then
      let (half, rest) := draws.nextHalf
      redraw size threshold tries (half * size) rest
    else
      (product, draws)

/-- More redraws than this in a row do not occur: even for the largest sizes the chance is below
one in `2 ^ 256`. -/
def mostRedraws : Nat := 256

/-- A number below a size from the upper bits of a product of 32 bits and the size. Products whose
remainder would favour some numbers are drawn again. A choice among one thing takes no draw. -/
def nextBelow (size : Nat) (draws : SeededDraws) : Nat × SeededDraws :=
  if size = 1 then
    (0, draws)
  else
    let (half, rest) := draws.nextHalf
    let product := half * size
    if product % UInt32.size < size then
      let (accepted, final) := redraw size ((UInt32.size - size) % size) mostRedraws product rest
      (accepted >>> 32, final)
    else
      (product >>> 32, rest)

instance : Draws SeededDraws where
  unit := nextUnit
  below size positive draws :=
    let (number, rest) := draws.nextBelow size
    (⟨number % size, Nat.mod_lt number positive⟩, rest)

end SeededDraws

end SpringArm
