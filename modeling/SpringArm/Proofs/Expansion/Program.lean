import Mathlib.Logic.Function.Iterate
import SpringArm.Expansion.Scan
import SpringArm.Proofs.Decimal.Digits

/-!
# Programs

The seeds that are made of letters and closed loops, as a syntax, and what they mean. A letter means
its replacement, a sequence means its parts in a row, and a loop that is read `n + 1` times means
the meaning of its body rewritten `n` more times; a loop that is read zero times means nothing. The
depth of a program is how many of its loops are met in each other.
-/

namespace SpringArm.Expansion

/-- What a character becomes in one pass: letters are replaced, others stay. -/
def rewriteCharacter (rules : List Rule) (character : Char) : List Char :=
  if isSymbol character then replacement rules character else [character]

/-- A text rewritten character by character. -/
def rewrite (rules : List Rule) (text : List Char) : List Char :=
  text.flatMap (rewriteCharacter rules)

/-- A text without parentheses and braces. -/
def Plain (text : List Char) : Prop :=
  ∀ character ∈ text, character ∉ ['(', ')', '{', '}']

/-- Rules that always write something. -/
def WritingRules (rules : List Rule) : Prop :=
  ∀ rule ∈ rules, rule.replacement ≠ []

/-- Rules that never write a parenthesis or a brace and always write something. -/
def PlainRules (rules : List Rule) : Prop :=
  ∀ rule ∈ rules, rule.replacement ≠ [] ∧ Plain rule.replacement

instance (text : List Char) : Decidable (Plain text) :=
  List.decidableBAll (fun character => character ∉ ['(', ')', '{', '}']) text

instance (rules : List Rule) : Decidable (WritingRules rules) :=
  List.decidableBAll (fun rule : Rule => rule.replacement ≠ []) rules

instance (rules : List Rule) : Decidable (PlainRules rules) :=
  List.decidableBAll (fun rule : Rule => rule.replacement ≠ [] ∧ Plain rule.replacement) rules

/-- A letter that rules can replace. -/
structure Letter where
  character : Char
  isSymbol : isSymbol character = true

/-- The digits of a loop head. -/
structure LoopCount where
  digits : List Char
  nonempty : digits ≠ []
  plain : ∀ digit ∈ digits, digit.isDigit = true

/-- How often a loop is read. -/
def LoopCount.value (count : LoopCount) : Nat :=
  Decimal.natOfPlain count.digits

/-- What becomes of the meaning of a body: nothing if the loop is never read, and otherwise the
first reading gives it and every other one rewrites it. -/
def LoopCount.readings (rules : List Rule) (count : LoopCount) (once : List Char) : List Char :=
  match count.value with
  | 0 => []
  | more + 1 => (rewrite rules)^[more] once

/-- A seed of letters and closed loops. -/
inductive Program where
  | done
  | letter (symbol : Letter) (rest : Program)
  | loop (count : LoopCount) (body rest : Program)

namespace Program

/-- How a program is spelt. -/
def text : Program → List Char
  | done => []
  | letter symbol rest => symbol.character :: rest.text
  | loop count body rest =>
    '(' :: (count.digits ++ ')' :: '{' :: (body.text ++ '}' :: rest.text))

/-- The text that a program stands for. -/
def meaning (rules : List Rule) : Program → List Char
  | done => []
  | letter symbol rest => rewrite rules [symbol.character] ++ rest.meaning rules
  | loop count body rest => count.readings rules (body.meaning rules) ++ rest.meaning rules

/-- How many loops in each other are met when a program is read. The body of a loop that is never
read counts for nothing, the loop itself does. -/
def depth : Program → Nat
  | done => 0
  | letter _ rest => rest.depth
  | loop count body rest => max ((if count.value = 0 then 0 else body.depth) + 1) rest.depth

/-- So many loops in each other, each of which is read once. -/
def nested : Nat → Program
  | 0 => done
  | outer + 1 => loop ⟨['1'], List.cons_ne_nil _ _, List.forall_mem_singleton.mpr rfl⟩
      (nested outer) done

end Program

section Rewriting

variable {rules : List Rule}

theorem Plain.append {first second : List Char} (left : Plain first) (right : Plain second) :
    Plain (first ++ second) :=
  List.forall_mem_append.mpr ⟨left, right⟩

/-- Letters are no parentheses or braces. -/
theorem Plain.symbol {character : Char} (symbol : isSymbol character = true) :
    Plain [character] := by
  intro same member special
  rw [List.mem_singleton.mp member] at special
  simp only [List.mem_cons, List.not_mem_nil, or_false] at special
  rcases special with rfl | rfl | rfl | rfl <;> exact absurd symbol (by decide)

/-- What a character becomes is the right side of a rule, or the character. -/
theorem rewriteCharacter_cases (rules : List Rule) (character : Char) :
    (∃ rule ∈ rules, rewriteCharacter rules character = rule.replacement) ∨
      rewriteCharacter rules character = [character] := by
  unfold rewriteCharacter replacement
  split
  · split
    next rule found => exact .inl ⟨rule, List.mem_of_find?_eq_some found, rfl⟩
    · exact .inr rfl
  · exact .inr rfl

theorem PlainRules.writing (plainRules : PlainRules rules) : WritingRules rules :=
  fun rule member => (plainRules rule member).1

theorem rewriteCharacter_length (writing : WritingRules rules) (character : Char) :
    1 ≤ (rewriteCharacter rules character).length := by
  rcases rewriteCharacter_cases rules character with ⟨rule, member, written⟩ | written
  · rw [written]
    exact List.length_pos_iff.mpr (writing rule member)
  · rw [written]
    exact Nat.le_refl 1

/-- Rewriting never makes a text shorter. -/
theorem length_le_rewrite (writing : WritingRules rules) (text : List Char) :
    text.length ≤ (rewrite rules text).length := by
  induction text with
  | nil => exact Nat.le_refl 0
  | cons character rest inductionHypothesis =>
    have first := rewriteCharacter_length writing character
    simp only [rewrite, List.flatMap_cons, List.length_append, List.length_cons] at *
    omega

theorem length_le_iterate (writing : WritingRules rules) (passes : Nat) (text : List Char) :
    text.length ≤ ((rewrite rules)^[passes] text).length := by
  induction passes generalizing text with
  | zero => exact Nat.le_refl _
  | succ passes inductionHypothesis =>
    rw [Function.iterate_succ_apply]
    exact (length_le_rewrite writing text).trans (inductionHypothesis _)

/-- Rewriting writes no parentheses or braces. -/
theorem Plain.rewrite (plainRules : PlainRules rules) {text : List Char} (plain : Plain text) :
    Plain (rewrite rules text) := by
  intro written member
  obtain ⟨character, inside, fromCharacter⟩ := List.mem_flatMap.mp member
  rcases rewriteCharacter_cases rules character with ⟨rule, ruleMember, result⟩ | result
  · rw [result] at fromCharacter
    exact (plainRules rule ruleMember).2 written fromCharacter
  · rw [result, List.mem_singleton] at fromCharacter
    exact fromCharacter ▸ plain character inside

theorem Plain.iterate (plainRules : PlainRules rules) (passes : Nat) {text : List Char}
    (plain : Plain text) : Plain ((Expansion.rewrite rules)^[passes] text) := by
  induction passes generalizing text with
  | zero => exact plain
  | succ passes inductionHypothesis =>
    rw [Function.iterate_succ_apply]
    exact inductionHypothesis (plain.rewrite plainRules)

theorem Plain.readings (plainRules : PlainRules rules) (count : LoopCount) {once : List Char}
    (plain : Plain once) : Plain (count.readings rules once) := by
  unfold LoopCount.readings
  split
  · exact fun _ member => absurd member List.not_mem_nil
  · exact plain.iterate plainRules _

/-- The meaning of a program has no parentheses or braces, so it opens and closes no loops. -/
theorem Program.meaning_plain (plainRules : PlainRules rules) (program : Program) :
    Plain (program.meaning rules) := by
  induction program with
  | done => exact fun _ member => absurd member List.not_mem_nil
  | letter symbol rest inductionHypothesis =>
    exact ((Plain.symbol symbol.isSymbol).rewrite plainRules).append inductionHypothesis
  | loop count body rest bodyHypothesis restHypothesis =>
    exact (bodyHypothesis.readings plainRules count).append restHypothesis

end Rewriting

section Spelling

theorem LoopCount.not_mem {character : Char} (count : LoopCount)
    (noDigit : character.isDigit = false) : character ∉ count.digits := by
  intro member
  rw [count.plain character member] at noDigit
  exact Bool.noConfusion noDigit

/-- Text without braces is skipped in search of a closing brace. -/
theorem afterLoop?_skip {text : List Char} (nesting : Nat) (rest : List Char)
    (noBrace : ∀ character ∈ text, character ≠ '{' ∧ character ≠ '}') :
    afterLoop? nesting (text ++ rest) = afterLoop? nesting rest := by
  induction text with
  | nil => rfl
  | cons character more inductionHypothesis =>
    obtain ⟨⟨noOpening, noClosing⟩, others⟩ := List.forall_mem_cons.mp noBrace
    rw [List.cons_append, afterLoop?, inductionHypothesis others]
    · exact noOpening
    · exact noClosing

/-- A program closes all loops that it opens. -/
theorem Program.afterLoop?_text (program : Program) (nesting : Nat) (rest : List Char) :
    afterLoop? nesting (program.text ++ rest) = afterLoop? nesting rest := by
  induction program generalizing nesting rest with
  | done => rfl
  | letter symbol more inductionHypothesis =>
    rw [text, List.cons_append, ← List.singleton_append, afterLoop?_skip, inductionHypothesis]
    intro character member
    have plain := Plain.symbol symbol.isSymbol character member
    simp only [List.mem_cons, List.not_mem_nil, or_false, not_or] at plain
    exact ⟨plain.2.2.1, plain.2.2.2⟩
  | loop count body more bodyHypothesis moreHypothesis =>
    have skipped : ∀ character ∈ '(' :: count.digits ++ [')'],
        character ≠ '{' ∧ character ≠ '}' := by
      intro character member
      simp only [List.cons_append, List.mem_cons, List.mem_append, List.not_mem_nil,
        or_false] at member
      rcases member with rfl | digit | rfl
      · decide
      · constructor
        · exact ne_of_mem_of_not_mem digit (count.not_mem rfl)
        · exact ne_of_mem_of_not_mem digit (count.not_mem rfl)
      · decide
    have split : (loop count body more).text ++ rest = ('(' :: count.digits ++ [')']) ++
        '{' :: (body.text ++ '}' :: (more.text ++ rest)) := by
      simp [text]
    rw [split, afterLoop?_skip nesting _ skipped, afterLoop?, bodyHypothesis, afterLoop?]
    exact moreHypothesis nesting rest

/-- How many loops a program opens. -/
theorem Program.count_loop (count : LoopCount) (body rest : Program) :
    (loop count body rest).text.count '(' = body.text.count '(' + rest.text.count '(' + 1 := by
  have none : count.digits.count '(' = 0 := List.count_eq_zero.mpr (count.not_mem rfl)
  simp [text, none]

/-- The head of a loop is recognised, whatever its digits look like. -/
theorem loopHead?_head {digits : List Char} (nonempty : digits ≠ [])
    (allDigits : ∀ digit ∈ digits, Text.isDigitLike digit = true) (body : List Char) :
    loopHead? ('(' :: (digits ++ ')' :: '{' :: body)) = some (digits, body) := by
  have noDigit : Text.isDigitLike ')' = false := rfl
  have taken : (digits ++ ')' :: '{' :: body).takeWhile Text.isDigitLike = digits := by
    rw [List.takeWhile_append_of_pos allDigits, List.takeWhile_cons_of_neg (by simp [noDigit])]
    exact List.append_nil _
  have dropped : (digits ++ ')' :: '{' :: body).dropWhile Text.isDigitLike =
      ')' :: '{' :: body := by
    rw [List.dropWhile_append_of_pos allDigits, List.dropWhile_cons_of_neg (by simp [noDigit])]
  obtain ⟨digit, more, spelt⟩ := List.exists_cons_of_ne_nil nonempty
  rw [spelt] at taken dropped ⊢
  simp only [loopHead?, taken, dropped]

theorem LoopCount.loopHead?_eq (count : LoopCount) (body : List Char) :
    loopHead? ('(' :: (count.digits ++ ')' :: '{' :: body)) = some (count.digits, body) :=
  loopHead?_head count.nonempty
    (fun digit member => Text.isDigitLike_plain (count.plain digit member)) body

end Spelling

section Nested

variable (levels : Nat)

@[simp] theorem Program.nested_depth : (nested levels).depth = levels := by
  induction levels with
  | zero => rfl
  | succ outer inductionHypothesis =>
    have once : Decimal.natOfPlain ['1'] ≠ 0 := by decide
    simp [nested, depth, LoopCount.value, once, inductionHypothesis]

end Nested

end SpringArm.Expansion
