import SpringArm.Blueprint.Basic
import SpringArm.Decimal.Reading
import SpringArm.Problem

/-!
# Scan

The machine that expands a seed. It holds one text, split at a cursor: what it has passed and what
is still to be read. A letter is replaced by its rule and the cursor jumps behind the replacement,
so one pass never reads its own output. The head `(n){` of a loop is taken out and its body is read
`n` times, each time with the result of the time before; the loops that are open are a stack of
frames. A loop with `n = 0` is cut out unread. Only so many loops may be open at once, and a loop
head that is met while they are ends the expansion, whether its body would be read or not.

`Scan.step` makes one move and `Scan.run` makes all of them. A run ends because it may enter only a
given number of loops, between two such entries the passes that are still to be made go down, and
within a pass the unread text gets shorter: `Scan.step_decreases`.
-/

namespace SpringArm.Expansion

/-- The letters that rules replace. -/
def isSymbol (character : Char) : Bool :=
  character.isAlpha

/-- What a letter becomes: the right side of the first rule for it, or the letter itself. -/
def replacement (rules : List Rule) (symbol : Char) : List Char :=
  match rules.find? fun rule => rule.search = [symbol] with
  | some rule => rule.replacement
  | none => [symbol]

/-- The digits of the loop head at the start of a text, and the text behind the head. -/
def loopHead? : List Char → Option (List Char × List Char)
  | '(' :: inside =>
    match inside.takeWhile Text.isDigitLike, inside.dropWhile Text.isDigitLike with
    | digit :: digits, ')' :: '{' :: body => some (digit :: digits, body)
    | _, _ => none
  | _ => none

/-- The text behind the brace that closes a loop whose body starts here, where `nesting` braces have
been opened since. -/
def afterLoop? (nesting : Nat) : List Char → Option (List Char)
  | [] => none
  | '{' :: rest => afterLoop? (nesting + 1) rest
  | '}' :: rest =>
    match nesting with
    | 0 => some rest
    | outer + 1 => afterLoop? outer rest
  | _ :: rest => afterLoop? nesting rest

/-- A loop that is being read. -/
structure Frame where
  /-- The text between the start of the enclosing loop and this one, latest character first. -/
  outer : List Char
  /-- The position at which the body starts. -/
  start : Nat
  /-- How many times the body is read after the present pass. -/
  passesLeft : Nat
deriving DecidableEq

/-- The state of an expansion. -/
structure Scan where
  /-- The open loops, innermost first. -/
  frames : List Frame
  /-- The text that was passed since the start of the innermost loop, latest character first. -/
  passed : List Char
  /-- The text that is still to be read. -/
  rest : List Char
  /-- The position of the cursor in the whole text. -/
  cursor : Nat
  /-- The length of the whole text. -/
  length : Nat
  /-- The problems so far, latest first. -/
  problems : List Problem
  /-- How many loops may still be entered. -/
  loopsLeft : Nat
  /-- How many loops may be open at once. -/
  deepest : Nat
deriving DecidableEq

/-- How an expansion ends. -/
inductive Ending where
  /-- Everything has been read. -/
  | complete (text : List Char) (problems : List Problem)
  /-- The text has become longer than the limit. -/
  | overlong (problems : List Problem)
  /-- The count of a loop is no number. -/
  | badCount (fault : Decimal.IntegerFault)
  /-- More loops were opened than may be entered. -/
  | endless
  /-- A loop was met in so many open ones as may be open at once. -/
  | tooDeep
deriving DecidableEq

namespace Scan

/-- The state before the first character of a seed is read. -/
def start (deepest loopsLeft : Nat) (seed : List Char) : Scan :=
  ⟨[], [], seed, 0, seed.length, [], loopsLeft, deepest⟩

/-- The text is longer than the limit. Without a limit it never is. -/
def isOverlong (limit : Option Int) (scan : Scan) : Bool :=
  limit.any fun longest => decide (longest < (scan.length : Int))

/-- Notes a problem at a position. -/
def note (scan : Scan) (position : Nat) (cause : ProblemCause) : Scan :=
  { scan with problems := ⟨position, cause⟩ :: scan.problems }

/-- Puts a replacement in the place of the next character and goes behind it. -/
def replaceNext (scan : Scan) (replaced rest : List Char) : Scan :=
  { scan with
    passed := replaced.reverse ++ scan.passed
    rest
    cursor := scan.cursor + replaced.length
    length := scan.length - 1 + replaced.length }

/-- Notes a problem with the next character and goes behind it. -/
def passProblem (scan : Scan) (cause : ProblemCause) (character : Char) (rest : List Char) :
    Scan :=
  (scan.note scan.cursor cause).replaceNext [character] rest

/-- Starts the next pass over the body of the innermost loop. -/
def nextPass (scan : Scan) (frame : Frame) (outerFrames : List Frame) (passesLeft : Nat) : Scan :=
  { scan with
    frames := { frame with passesLeft } :: outerFrames
    passed := []
    rest := scan.passed.reverse ++ scan.rest
    cursor := frame.start }

/-- Leaves the innermost loop with what was passed and a text to go on with. -/
def leaveLoop (scan : Scan) (frame : Frame) (outerFrames : List Frame) (rest : List Char) : Scan :=
  { scan with frames := outerFrames, passed := scan.passed ++ frame.outer, rest }

/-- Enters a loop that is read at least once. -/
def enterLoop (scan : Scan) (passesLeft : Nat) (body : List Char) (headLength : Nat)
    (loopsLeft : Nat) : Scan :=
  { scan with
    frames := ⟨scan.passed, scan.cursor, passesLeft⟩ :: scan.frames
    passed := []
    rest := body
    length := scan.length - headLength
    loopsLeft }

/-- Cuts out a loop that is read zero times. A loop that is not closed takes the whole rest of the
text with it. -/
def cutLoop (scan : Scan) (body : List Char) (loopsLeft : Nat) : Scan :=
  match afterLoop? 0 body with
  | some rest => { scan with rest, length := scan.cursor + rest.length, loopsLeft }
  | none =>
    { scan.note scan.cursor .unclosedLoop with rest := [], length := scan.cursor, loopsLeft }

/-- Reads the head of a loop. Its count is read before it is known whether there is room for one
more loop. -/
def readLoop (scan : Scan) (digits body : List Char) : Except Ending Scan :=
  match Decimal.integerOfDigits false digits with
  | .error fault => .error (.badCount fault)
  | .ok count =>
    if scan.frames.length < scan.deepest then
      match scan.loopsLeft with
      | 0 => .error .endless
      | loopsLeft + 1 =>
        match count.toNat with
        | 0 => .ok (scan.cutLoop body loopsLeft)
        | passesLeft + 1 => .ok (scan.enterLoop passesLeft body (digits.length + 3) loopsLeft)
    else .error .tooDeep

/-- Reads a closing brace: the end of a pass, or a problem if no loop is open. -/
def readLoopEnd (scan : Scan) (rest : List Char) : Scan :=
  match scan.frames with
  | [] => scan.passProblem .unexpectedLoopEnd '}' rest
  | frame :: outerFrames =>
    match frame.passesLeft with
    | passesLeft + 1 => scan.nextPass frame outerFrames passesLeft
    | 0 => { scan.leaveLoop frame outerFrames rest with length := scan.length - 1 }

/-- Reads the end of the text: the end of a pass, or of everything if no loop is open. -/
def readEnd (limit : Option Int) (scan : Scan) : Except Ending Scan :=
  match scan.frames with
  | [] =>
    if scan.isOverlong limit then .error (.overlong scan.problems.reverse)
    else .error (.complete scan.passed.reverse scan.problems.reverse)
  | frame :: outerFrames =>
    match frame.passesLeft with
    | passesLeft + 1 => .ok (scan.nextPass frame outerFrames passesLeft)
    | 0 => .ok ((scan.note frame.start .unclosedLoop).leaveLoop frame outerFrames [])

/-- Reads one character. -/
def readCharacter (rules : List Rule) (scan : Scan) (character : Char) (rest : List Char) :
    Except Ending Scan :=
  if isSymbol character then
    .ok (scan.replaceNext (replacement rules character) rest)
  else
    match loopHead? (character :: rest) with
    | some (digits, body) => scan.readLoop digits body
    | none =>
      if character = '}' then .ok (scan.readLoopEnd rest)
      else .ok (scan.passProblem (.unknownSymbol character) character rest)

/-- Makes one move. The length is checked before a character is read and once at the very end. -/
def step (rules : List Rule) (limit : Option Int) (scan : Scan) : Except Ending Scan :=
  match scan.rest with
  | [] => scan.readEnd limit
  | character :: rest =>
    if scan.isOverlong limit then .error (.overlong scan.problems.reverse)
    else scan.readCharacter rules character rest

/-- The passes that are still to be made over open loops, the present ones included. -/
def passes : List Frame → Nat
  | [] => 0
  | frame :: outer => frame.passesLeft + 1 + passes outer

/-- What every move makes smaller, compared from left to right. -/
def remaining (scan : Scan) : Nat × Nat × Nat :=
  (scan.loopsLeft, passes scan.frames, scan.rest.length)

/-- The order in which the remaining work goes down. -/
abbrev Decreases : Nat × Nat × Nat → Nat × Nat × Nat → Prop :=
  Prod.Lex (· < ·) (Prod.Lex (· < ·) (· < ·))

private theorem decreases_of_rest {loops passes before after : Nat} (shorter : after < before) :
    Decreases (loops, passes, after) (loops, passes, before) :=
  Prod.Lex.right _ (Prod.Lex.right _ shorter)

private theorem decreases_of_passes {loops before after first second : Nat}
    (fewer : after < before) : Decreases (loops, after, first) (loops, before, second) :=
  Prod.Lex.right _ (Prod.Lex.left _ _ fewer)

private theorem readEnd_decreases {limit : Option Int} {scan next : Scan}
    (moved : scan.readEnd limit = .ok next) : Decreases next.remaining scan.remaining := by
  unfold readEnd at moved
  split at moved
  · split at moved <;> simp at moved
  next frame outerFrames frames =>
    split at moved
    next passesLeft passes =>
      cases moved
      apply decreases_of_passes
      simp [nextPass, Scan.passes, frames, passes]
    · cases moved
      apply decreases_of_passes
      simp [note, leaveLoop, Scan.passes, frames]

private theorem readLoopEnd_decreases {scan : Scan} {rest : List Char}
    (shorter : rest.length < scan.rest.length) :
    Decreases (scan.readLoopEnd rest).remaining scan.remaining := by
  unfold readLoopEnd
  split
  · exact decreases_of_rest shorter
  next frame outerFrames frames =>
    split
    next passesLeft passes =>
      apply decreases_of_passes
      simp [nextPass, Scan.passes, frames, passes]
    · apply decreases_of_passes
      simp [leaveLoop, Scan.passes, frames]

private theorem cutLoop_loopsLeft (scan : Scan) (body : List Char) (loopsLeft : Nat) :
    (scan.cutLoop body loopsLeft).loopsLeft = loopsLeft := by
  unfold cutLoop
  split <;> rfl

private theorem readLoop_decreases {scan next : Scan} {digits body : List Char}
    (moved : scan.readLoop digits body = .ok next) :
    Decreases next.remaining scan.remaining := by
  unfold readLoop at moved
  split at moved
  · simp at moved
  · split at moved
    · split at moved
      · simp at moved
      next loopsLeft loops =>
        apply Prod.Lex.left
        rw [loops]
        split at moved
        · cases moved
          rw [cutLoop_loopsLeft]
          exact Nat.lt_succ_self loopsLeft
        · cases moved
          exact Nat.lt_succ_self loopsLeft
    · simp at moved

/-- Every move leaves less to do. -/
theorem step_decreases {rules : List Rule} {limit : Option Int} {scan next : Scan}
    (moved : scan.step rules limit = .ok next) : Decreases next.remaining scan.remaining := by
  unfold step at moved
  split at moved
  · exact readEnd_decreases moved
  next character rest unread =>
    have shorter : rest.length < scan.rest.length := by simp [unread]
    split at moved
    · simp at moved
    · unfold readCharacter at moved
      split at moved
      · cases moved
        exact decreases_of_rest shorter
      · split at moved
        · exact readLoop_decreases moved
        · split at moved
          · cases moved
            exact readLoopEnd_decreases shorter
          · cases moved
            exact decreases_of_rest shorter

/-- Makes all moves. -/
def run (rules : List Rule) (limit : Option Int) (scan : Scan) : Ending :=
  match moved : scan.step rules limit with
  | .error ending => ending
  | .ok next =>
    have _less := step_decreases moved
    run rules limit next
termination_by scan.remaining
decreasing_by assumption

end Scan

end SpringArm.Expansion
