import Mathlib.Data.List.Infix
import SpringArm.Proofs.Expansion.Step

/-!
# The grammar of seeds

A seed is well-formed if it is made of letters and closed loops, where the body of a loop that is
never read need only have balanced braces. `Nested` says how many loops are in each other at most,
and `Readable` says the same of the text that is left while loops are open: read from left to right,
every character of it has a meaning, every open loop is closed and no more loops are open than there
are levels. A text is readable with no loop open exactly if it is well-formed with so many
levels. -/

namespace SpringArm.Expansion

/-- No start of a text has more closing than opening braces, and the text has as many of both. -/
def Balanced (text : List Char) : Prop :=
  (∀ start, start <+: text → start.count '}' ≤ start.count '{') ∧
    text.count '}' = text.count '{'

/-- The seeds that are made of letters and closed loops, with so many levels of loops at most. -/
inductive Nested : Nat → List Char → Prop where
  | done {levels : Nat} : Nested levels []
  | letter {levels : Nat} (symbol : Letter) {rest : List Char} (nested : Nested levels rest) :
      Nested levels (symbol.character :: rest)
  /-- The body of a loop that is read is made of letters and closed loops, one level further in. -/
  | loop {levels : Nat} {count : LoopCount} {body rest : List Char} (some : 1 ≤ count.value)
      (nestedBody : Nested levels body) (nested : Nested (levels + 1) rest) :
      Nested (levels + 1) ('(' :: (count.digits ++ ')' :: '{' :: (body ++ '}' :: rest)))
  /-- In the body of a loop that is never read only the braces matter. -/
  | skipped {levels : Nat} {count : LoopCount} {block rest : List Char} (none : count.value = 0)
      (balanced : Balanced block) (nested : Nested (levels + 1) rest) :
      Nested (levels + 1) ('(' :: (count.digits ++ ')' :: '{' :: (block ++ '}' :: rest)))

/-- Fewer levels are needed than there are. -/
theorem Nested.mono {levels more : Nat} {text : List Char} (nested : Nested levels text)
    (le : levels ≤ more) : Nested more text := by
  induction nested generalizing more with
  | done => exact .done
  | letter symbol _ inductionHypothesis => exact .letter symbol (inductionHypothesis le)
  | loop some _ _ bodyHypothesis restHypothesis =>
    obtain ⟨further, rfl⟩ := Nat.exists_eq_add_of_le' (Nat.one_le_of_lt le)
    exact .loop some (bodyHypothesis (Nat.le_of_succ_le_succ le)) (restHypothesis le)
  | skipped none balanced _ inductionHypothesis =>
    obtain ⟨further, rfl⟩ := Nat.exists_eq_add_of_le' (Nat.one_le_of_lt le)
    exact .skipped none balanced (inductionHypothesis le)

/-- The texts that can be read to their end without a problem while so many loops are open, of so
many that may be. -/
inductive Readable (levels : Nat) : Nat → List Char → Prop where
  | done : Readable levels 0 []
  | letter {opened : Nat} (symbol : Letter) {rest : List Char}
      (readable : Readable levels opened rest) :
      Readable levels opened (symbol.character :: rest)
  | close {opened : Nat} {rest : List Char} (readable : Readable levels opened rest) :
      Readable levels (opened + 1) ('}' :: rest)
  | enter {opened : Nat} {count : LoopCount} {body : List Char} (room : opened < levels)
      (some : 1 ≤ count.value) (readable : Readable levels (opened + 1) body) :
      Readable levels opened ('(' :: (count.digits ++ ')' :: '{' :: body))
  | skip {opened : Nat} {count : LoopCount} {block rest : List Char} (room : opened < levels)
      (none : count.value = 0) (balanced : Balanced block)
      (readable : Readable levels opened rest) :
      Readable levels opened ('(' :: (count.digits ++ ')' :: '{' :: (block ++ '}' :: rest)))

section Levels

variable {levels opened inner : Nat} {text rest : List Char}

/-- Behind a well-formed text the same loops are open. -/
theorem Nested.append (nested : Nested inner text) (fits : opened + inner ≤ levels)
    (readable : Readable levels opened rest) : Readable levels opened (text ++ rest) := by
  induction nested generalizing opened rest with
  | done => exact readable
  | letter symbol _ inductionHypothesis => exact .letter symbol (inductionHypothesis fits readable)
  | @loop inner count body more some _ _ bodyHypothesis moreHypothesis =>
    have inside := bodyHypothesis (by omega) (.close (moreHypothesis fits readable))
    simpa using Readable.enter (by omega) some inside
  | @skipped inner count block more none balanced _ inductionHypothesis =>
    simpa using Readable.skip (by omega) none balanced (inductionHypothesis fits readable)

/-- Well-formed texts with a closing brace between each two of them, one more than there are loops
open. In each of them there are so many levels as the open loops leave. -/
def Layered (levels : Nat) : Nat → List Char → Prop
  | 0, text => Nested levels text
  | outer + 1, text => ∃ inside rest, Nested (levels - (outer + 1)) inside ∧
      text = inside ++ '}' :: rest ∧ Layered levels outer rest

/-- What may stand in front of a well-formed text may stand in front of the first of several. -/
theorem Layered.prepend (layered : Layered levels opened text) (front : List Char)
    (fits : ∀ rest, Nested (levels - opened) rest → Nested (levels - opened) (front ++ rest)) :
    Layered levels opened (front ++ text) := by
  cases opened with
  | zero => exact fits text layered
  | succ outer =>
    obtain ⟨inside, rest, nested, rfl, others⟩ := layered
    exact ⟨front ++ inside, rest, fits inside nested, (List.append_assoc ..).symm, others⟩

/-- A readable text closes the open loops one after the other. -/
theorem Readable.layered (readable : Readable levels opened text) :
    Layered levels opened text := by
  induction readable with
  | done => exact .done
  | @letter opened symbol rest _ inductionHypothesis =>
    exact inductionHypothesis.prepend [symbol.character] fun _ nested => .letter symbol nested
  | @close opened rest _ inductionHypothesis =>
    exact ⟨[], rest, .done, rfl, inductionHypothesis⟩
  | @enter opened count body room some _ inductionHypothesis =>
    obtain ⟨inside, behind, insideNested, rfl, others⟩ := inductionHypothesis
    have spelt : '(' :: (count.digits ++ ')' :: '{' :: (inside ++ '}' :: behind)) =
        ('(' :: (count.digits ++ ')' :: '{' :: (inside ++ ['}']))) ++ behind := by
      simp
    have level : levels - opened = levels - (opened + 1) + 1 := by omega
    rw [spelt]
    apply others.prepend
    rw [level]
    intro rest nested
    simpa using Nested.loop some insideNested nested
  | @skip opened count block behind room none balanced _ inductionHypothesis =>
    have spelt : '(' :: (count.digits ++ ')' :: '{' :: (block ++ '}' :: behind)) =
        ('(' :: (count.digits ++ ')' :: '{' :: (block ++ ['}']))) ++ behind := by
      simp
    have level : levels - opened = levels - (opened + 1) + 1 := by omega
    rw [spelt]
    apply inductionHypothesis.prepend
    rw [level]
    intro rest nested
    simpa using Nested.skipped none balanced nested

end Levels

section Blocks

variable {opened later : Nat} {character : Char} {text body rest : List Char}

end Blocks

namespace Readable

variable {levels opened : Nat} {character : Char} {rest body : List Char}

end Readable

end SpringArm.Expansion
