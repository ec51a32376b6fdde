import SpringArm.Proofs.Expansion.Ends
import SpringArm.Proofs.Expansion.Grammar

/-!
# Problems of seeds

An expansion of an ASCII seed with rules that write letters has found no problem exactly if the seed
is well-formed. What carries the proof is that no move changes whether a state is clean: whether it
has no problem so far and what is still to be read is readable. A pass that was read without a
problem has left letters only, so reading it again finds none either.
-/

namespace SpringArm.Expansion

/-- A text of letters. -/
def Letters (text : List Char) : Prop :=
  ∀ character ∈ text, isSymbol character = true

/-- Rules that write nothing but letters. -/
def LetterRules (rules : List Rule) : Prop :=
  ∀ rule ∈ rules, Letters rule.replacement

/-- A text of ASCII characters. -/
def Ascii (text : List Char) : Prop :=
  ∀ character ∈ text, character.toNat < 128

instance (text : List Char) : Decidable (Letters text) :=
  List.decidableBAll (fun character => isSymbol character = true) text

instance (rules : List Rule) : Decidable (LetterRules rules) :=
  List.decidableBAll (fun rule : Rule => Letters rule.replacement) rules

instance (text : List Char) : Decidable (Ascii text) :=
  List.decidableBAll (fun character : Char => character.toNat < 128) text

/-- Letters end with the small z. -/
theorem toNat_lt_of_isSymbol {character : Char} (symbol : isSymbol character = true) :
    character.toNat < 128 := by
  have letter : (decide (character.val ≥ 'A'.val ∧ character.val ≤ 'Z'.val) ||
      (decide (character.val ≥ 'a'.val) && decide (character.val ≤ 'z'.val))) = true := symbol
  simp only [Bool.or_eq_true, Bool.and_eq_true, decide_eq_true_eq, UInt32.le_iff_toNat_le]
    at letter
  have bound : character.val.toNat ≤ 122 := by
    rcases letter with ⟨-, upper⟩ | ⟨-, lower⟩
    · exact upper.trans (by decide)
    · exact lower
  exact Nat.lt_of_le_of_lt bound (by decide)

/-- The only ASCII characters that look like a digit are the ten plain digits. -/
theorem isDigit_of_isDigitLike {character : Char} (ascii : character.toNat < 128)
    (digitLike : Text.isDigitLike character = true) : character.isDigit = true := by
  have checked : ∀ code < 128, Text.isDigitLike (Char.ofNat code) = true →
      (Char.ofNat code).isDigit = true := by
    decide
  have same := checked character.toNat ascii
  rw [Char.ofNat_toNat] at same
  exact same digitLike

theorem LetterRules.opensNoLoop {rules : List Rule} (letterRules : LetterRules rules) :
    OpensNoLoop rules := by
  intro rule member opening
  cases letterRules rule member '(' opening

/-- What is written for a letter are letters. -/
theorem LetterRules.replacement {rules : List Rule} (letterRules : LetterRules rules)
    {character : Char} (symbol : isSymbol character = true) :
    Letters (Expansion.replacement rules character) := by
  have same : rewriteCharacter rules character = Expansion.replacement rules character := by
    simp only [rewriteCharacter, symbol, if_true]
  rw [← same]
  rcases rewriteCharacter_cases rules character with ⟨rule, member, written⟩ | written
  · exact written ▸ letterRules rule member
  · exact written ▸ List.forall_mem_singleton.mpr symbol

namespace Scan

/-- All that has been passed in the open loops are letters. -/
def Lettered (scan : Scan) : Prop :=
  Letters (outerText scan.frames ++ scan.passed.reverse)

/-- A state whose positions are right, whose text is ASCII, and which may enter all the loops that
are ahead. -/
structure Orderly (scan : Scan) : Prop where
  measured : scan.Measured
  ascii : Ascii scan.text
  affordable : scan.text.count '(' ≤ scan.loopsLeft

section Moves

variable {rules : List Rule} {limit : Option Int} {scan next : Scan}

theorem ascii_moved (letterRules : LetterRules rules) (ascii : Ascii scan.text)
    (moved : Moved rules scan next) : Ascii next.text := by
  cases moved.textChange with
  | kept text loops => exact text ▸ ascii
  | replaced front character tail before after loops =>
    rw [before] at ascii
    obtain ⟨frontAscii, others⟩ := List.forall_mem_append.mp ascii
    obtain ⟨characterAscii, tailAscii⟩ := List.forall_mem_cons.mp others
    rw [after]
    refine List.forall_mem_append.mpr ⟨frontAscii, List.forall_mem_append.mpr ⟨?_, tailAscii⟩⟩
    rcases rewriteCharacter_cases rules character with ⟨rule, member, written⟩ | written
    · rw [written]
      exact fun letter inside => toNat_lt_of_isSymbol (letterRules rule member letter inside)
    · rw [written]
      exact List.forall_mem_singleton.mpr characterAscii
  | removed front gone tail before after loops =>
    rw [before] at ascii
    obtain ⟨frontAscii, others⟩ := List.forall_mem_append.mp ascii
    rw [after]
    exact List.forall_mem_append.mpr ⟨frontAscii, (List.forall_mem_append.mp others).2⟩

theorem Orderly.moved (letterRules : LetterRules rules) (orderly : scan.Orderly)
    (moved : Moved rules scan next) : next.Orderly := by
  have openings := moved.openings_le letterRules.opensNoLoop
  have used := moved.loops
  have enough := orderly.affordable
  exact ⟨orderly.measured.moved moved, ascii_moved letterRules orderly.ascii moved, by omega⟩

/-- A move that finds no problem leaves letters only behind. -/
theorem Moved.lettered (letterRules : LetterRules rules) (moved : Moved rules scan next)
    (lettered : scan.Lettered) (none : next.problems = []) : next.Lettered := by
  unfold Lettered at lettered ⊢
  cases moved with
  | @letter character rest unread symbol =>
    have written := letterRules.replacement symbol
    simp only [replaceNext, List.reverse_append, List.reverse_reverse, ← List.append_assoc]
    exact List.forall_mem_append.mpr ⟨lettered, written⟩
  | unknown unread noSymbol noHead noClosing => cases none
  | unopened unread frames => cases none
  | cut head value room loops never =>
    unfold cutLoop at none ⊢
    split
    · exact lettered
    next unclosed =>
      rw [unclosed] at none
      cases none
  | enter head value room loops again =>
    simpa [enterLoop, outerText] using lettered
  | @again frame outerFrames passesLeft unread frames passes =>
    rw [frames] at lettered
    have outer : Letters (outerText (frame :: outerFrames)) :=
      (List.forall_mem_append.mp lettered).1
    simpa [nextPass, outerText] using outer
  | leave unread frames last =>
    rw [frames] at lettered
    simpa [leaveLoop, outerText] using lettered
  | unclosed unread frames last => cases none

end Moves

end Scan

end SpringArm.Expansion
