import SpringArm.Proofs.Expansion.Moves

/-!
# One move of an expansion

What a single move can do, stated once: `Scan.Moved` lists the moves and `Scan.Stopped` the ways to
end. The text of a state is what lies before and behind its cursor, in all open loops; a move leaves
it as it is, replaces one letter, or takes something out. So whatever every move keeps holds in the
state in which a run ends.
-/

namespace SpringArm.Expansion

/-- What is recognised as the head of a loop. -/
theorem loopHead?_eq_some {text digits body : List Char}
    (found : loopHead? text = some (digits, body)) :
    text = '(' :: (digits ++ ')' :: '{' :: body) ∧ digits ≠ [] ∧
      ∀ digit ∈ digits, Text.isDigitLike digit = true := by
  unfold loopHead? at found
  split at found
  next inside =>
    split at found
    next digit more behind taken dropped =>
      simp only [Option.some.injEq, Prod.mk.injEq] at found
      obtain ⟨rfl, rfl⟩ := found
      refine ⟨?_, List.cons_ne_nil _ _, ?_⟩
      · rw [← taken, ← dropped, List.takeWhile_append_dropWhile]
      · rw [← taken]
        exact fun digit member => List.mem_takeWhile_imp member
    · cases found
  · cases found

/-- What is behind a loop that is cut out ends the text of the loop. -/
theorem afterLoop?_suffix {nesting : Nat} {body rest : List Char}
    (found : afterLoop? nesting body = some rest) : rest <:+ body := by
  induction body generalizing nesting with
  | nil => cases found
  | cons character more inductionHypothesis =>
    refine List.IsSuffix.trans ?_ (List.suffix_cons character more)
    unfold afterLoop? at found
    split at found
    · cases found
    next same =>
      cases same
      exact inductionHypothesis found
    next same =>
      cases same
      split at found
      · cases found
        exact List.suffix_refl _
      · exact inductionHypothesis found
    next same =>
      cases same
      exact inductionHypothesis found

/-- The text in front of the innermost of some open loops. -/
def outerText : List Frame → List Char
  | [] => []
  | frame :: outer => outerText outer ++ frame.outer.reverse

/-- Every loop starts behind the text in front of it. -/
def Starts : List Frame → Prop
  | [] => True
  | frame :: outer => frame.start = (outerText (frame :: outer)).length ∧ Starts outer

/-- The brackets in the head of a loop. -/
def headBrackets : List Char := ['(', ')', '{']

/-- The head of a loop has all of its brackets. -/
theorem mem_head {bracket : Char} (isBracket : bracket ∈ headBrackets) (digits body : List Char) :
    bracket ∈ '(' :: (digits ++ ')' :: '{' :: body) := by
  simp only [headBrackets, List.mem_cons, List.not_mem_nil, or_false] at isBracket
  rcases isBracket with rfl | rfl | rfl <;> simp

namespace Scan

/-- The whole text of a state. -/
def text (scan : Scan) : List Char :=
  outerText scan.frames ++ (scan.passed.reverse ++ scan.rest)

/-- What one move does. -/
inductive Moved (rules : List Rule) (scan : Scan) : Scan → Prop where
  /-- A letter is replaced. -/
  | letter {character rest} (unread : scan.rest = character :: rest)
      (symbol : isSymbol character = true) :
      Moved rules scan (scan.replaceNext (replacement rules character) rest)
  /-- A character without meaning is passed. -/
  | unknown {character rest} (unread : scan.rest = character :: rest)
      (noSymbol : isSymbol character = false) (noHead : loopHead? (character :: rest) = none)
      (noClosing : character ≠ '}') :
      Moved rules scan (scan.passProblem (.unknownSymbol character) character rest)
  /-- A closing brace is passed while no loop is open. -/
  | unopened {rest} (unread : scan.rest = '}' :: rest) (frames : scan.frames = []) :
      Moved rules scan (scan.passProblem .unexpectedLoopEnd '}' rest)
  /-- A loop that is never read is cut out. -/
  | cut {digits body count loopsLeft} (head : loopHead? scan.rest = some (digits, body))
      (value : Decimal.integerOfDigits false digits = .ok count)
      (room : scan.frames.length < scan.deepest) (loops : scan.loopsLeft = loopsLeft + 1)
      (never : count.toNat = 0) :
      Moved rules scan (scan.cutLoop body loopsLeft)
  /-- A loop that is read at least once is entered. -/
  | enter {digits body count loopsLeft passesLeft}
      (head : loopHead? scan.rest = some (digits, body))
      (value : Decimal.integerOfDigits false digits = .ok count)
      (room : scan.frames.length < scan.deepest) (loops : scan.loopsLeft = loopsLeft + 1)
      (again : count.toNat = passesLeft + 1) :
      Moved rules scan (scan.enterLoop passesLeft body (digits.length + 3) loopsLeft)
  /-- A pass that is not the last one ends, at a closing brace or at the end of the text. -/
  | again {frame outerFrames passesLeft}
      (unread : scan.rest = [] ∨ ∃ rest, scan.rest = '}' :: rest)
      (frames : scan.frames = frame :: outerFrames) (passes : frame.passesLeft = passesLeft + 1) :
      Moved rules scan (scan.nextPass frame outerFrames passesLeft)
  /-- The last pass ends at a closing brace. -/
  | leave {rest frame outerFrames} (unread : scan.rest = '}' :: rest)
      (frames : scan.frames = frame :: outerFrames) (last : frame.passesLeft = 0) :
      Moved rules scan { scan.leaveLoop frame outerFrames rest with length := scan.length - 1 }
  /-- The last pass ends with the text. -/
  | unclosed {frame outerFrames} (unread : scan.rest = [])
      (frames : scan.frames = frame :: outerFrames) (last : frame.passesLeft = 0) :
      Moved rules scan ((scan.note frame.start .unclosedLoop).leaveLoop frame outerFrames [])

/-- How a state that makes no more move ends. -/
inductive Stopped (limit : Option Int) (scan : Scan) : Ending → Prop where
  | complete (unread : scan.rest = []) (frames : scan.frames = []) :
      Stopped limit scan (.complete scan.passed.reverse scan.problems.reverse)
  | overlong (tooLong : scan.isOverlong limit = true) :
      Stopped limit scan (.overlong scan.problems.reverse)
  | badCount {digits body fault} (fits : scan.isOverlong limit = false)
      (head : loopHead? scan.rest = some (digits, body))
      (noNumber : Decimal.integerOfDigits false digits = .error fault) :
      Stopped limit scan (.badCount fault)
  | endless {digits body} (head : loopHead? scan.rest = some (digits, body))
      (loops : scan.loopsLeft = 0) : Stopped limit scan .endless
  | tooDeep {digits body} (head : loopHead? scan.rest = some (digits, body))
      (full : scan.deepest ≤ scan.frames.length) : Stopped limit scan .tooDeep

section Cases

variable {rules : List Rule} {limit : Option Int} {scan next : Scan}

private theorem readEnd_moved (unread : scan.rest = []) (read : scan.readEnd limit = .ok next) :
    Moved rules scan next := by
  unfold readEnd at read
  split at read
  · split at read <;> cases read
  next frame outerFrames frames =>
    split at read
    next passes =>
      cases read
      exact .again (.inl unread) frames passes
    next last =>
      cases read
      exact .unclosed unread frames last

private theorem readLoop_moved {digits body : List Char}
    (head : loopHead? scan.rest = some (digits, body))
    (read : scan.readLoop digits body = .ok next) : Moved rules scan next := by
  unfold readLoop at read
  split at read
  · cases read
  next count value =>
    split at read
    next room =>
      split at read
      · cases read
      next loopsLeft loops =>
        split at read
        next never =>
          cases read
          exact .cut head value room loops never
        next again =>
          cases read
          exact .enter head value room loops again
    · cases read

private theorem readLoopEnd_moved {rest : List Char} (unread : scan.rest = '}' :: rest) :
    Moved rules scan (scan.readLoopEnd rest) := by
  unfold readLoopEnd
  split
  next frames => exact .unopened unread frames
  next frame outerFrames frames =>
    split
    next passes => exact .again (.inr ⟨rest, unread⟩) frames passes
    next last => exact .leave unread frames last

/-- A step that goes on makes one of the moves. -/
theorem step_moved (moved : scan.step rules limit = .ok next) : Moved rules scan next := by
  unfold step at moved
  split at moved
  next unread => exact readEnd_moved unread moved
  next character rest unread =>
    split at moved
    · cases moved
    · unfold readCharacter at moved
      split at moved
      next symbol =>
        cases moved
        exact .letter unread symbol
      next noSymbol =>
        split at moved
        next digits body head => exact readLoop_moved (unread ▸ head) moved
        next noHead =>
          split at moved
          next closing =>
            subst closing
            cases moved
            exact readLoopEnd_moved unread
          next noClosing =>
            cases moved
            exact .unknown unread (Bool.eq_false_iff.mpr noSymbol) noHead noClosing

/-- A step that does not go on ends in one of the ways. -/
theorem step_stopped {ending : Ending} (stopped : scan.step rules limit = .error ending) :
    Stopped limit scan ending := by
  unfold step at stopped
  split at stopped
  next unread =>
    unfold readEnd at stopped
    split at stopped
    next frames =>
      split at stopped
      next tooLong =>
        cases stopped
        exact .overlong tooLong
      · cases stopped
        exact .complete unread frames
    · split at stopped <;> cases stopped
  next character rest unread =>
    split at stopped
    next tooLong =>
      cases stopped
      exact .overlong tooLong
    next fits =>
      unfold readCharacter at stopped
      split at stopped
      · cases stopped
      · split at stopped
        next digits body head =>
          rw [← unread] at head
          unfold readLoop at stopped
          split at stopped
          next fault noNumber =>
            cases stopped
            exact .badCount (Bool.eq_false_iff.mpr fits) head noNumber
          · split at stopped
            · split at stopped
              next loops =>
                cases stopped
                exact .endless head loops
              · split at stopped <;> cases stopped
            next full =>
              cases stopped
              exact .tooDeep head (Nat.not_lt.mp full)
        · split at stopped <;> cases stopped

/-- Problems that have been found stay. -/
theorem Moved.problems_suffix (moved : Moved rules scan next) :
    scan.problems <:+ next.problems := by
  cases moved with
  | letter unread symbol => exact List.suffix_refl _
  | unknown unread noSymbol noHead noClosing => exact List.suffix_cons _ _
  | unopened unread frames => exact List.suffix_cons _ _
  | cut head value room loops never =>
    unfold cutLoop
    split
    · exact List.suffix_refl _
    · exact List.suffix_cons _ _
  | enter head value room loops again => exact List.suffix_refl _
  | again unread frames passes => exact List.suffix_refl _
  | leave unread frames last => exact List.suffix_refl _
  | unclosed unread frames last => exact List.suffix_cons _ _

/-- How many loops may be open at once never changes. -/
theorem Moved.deepest_eq (moved : Moved rules scan next) : next.deepest = scan.deepest := by
  cases moved with
  | cut head value room loops never =>
    unfold cutLoop
    split <;> rfl
  | _ => rfl

/-- A loop is opened only by one that may be entered. -/
theorem Moved.frames_le (moved : Moved rules scan next) :
    next.frames.length + next.loopsLeft ≤ scan.frames.length + scan.loopsLeft := by
  cases moved with
  | cut head value room loops never =>
    unfold cutLoop
    split
    · simp only [loops]
      omega
    · simp only [note, loops]
      omega
  | enter head value room loops again =>
    simp only [enterLoop, List.length_cons, loops]
    omega
  | again unread frames passes => simp [nextPass, frames]
  | leave unread frames last => simp [leaveLoop, frames]
  | unclosed unread frames last => simp [leaveLoop, note, frames]
  | _ => exact Nat.le_refl _

/-- Whatever every move keeps holds in the state in which a run ends. -/
theorem run_invariant (rules : List Rule) (limit : Option Int) (holds : Scan → Prop)
    (start : holds scan)
    (kept : ∀ before after, holds before → Moved rules before after → holds after) :
    ∃ last, holds last ∧ Stopped limit last (scan.run rules limit) := by
  induction scan using run.induct rules limit with
  | case1 scan ending stopped =>
    rw [run_of_step_error stopped]
    exact ⟨scan, start, step_stopped stopped⟩
  | case2 scan next moved _ inductionHypothesis =>
    rw [run_of_step_ok moved]
    exact inductionHypothesis (kept scan next start (step_moved moved))

end Cases

section Text

variable {rules : List Rule} {scan next : Scan}

/-- What a move does to the text and to the loops that may still be entered. With each of these a
whole head goes out of the text. -/
inductive TextChange (rules : List Rule) (scan next : Scan) : Prop where
  | kept (text : next.text = scan.text) (loops : next.loopsLeft = scan.loopsLeft)
  | replaced (front : List Char) (character : Char) (tail : List Char)
      (before : scan.text = front ++ character :: tail)
      (after : next.text = front ++ (rewriteCharacter rules character ++ tail))
      (loops : next.loopsLeft = scan.loopsLeft)
  | removed (front gone tail : List Char) (before : scan.text = front ++ (gone ++ tail))
      (after : next.text = front ++ tail)
      (loops : next.loopsLeft = scan.loopsLeft ∨
        scan.loopsLeft = next.loopsLeft + 1 ∧ ∀ bracket ∈ headBrackets, bracket ∈ gone)

theorem Moved.textChange (moved : Moved rules scan next) : TextChange rules scan next := by
  cases moved with
  | @letter character rest unread symbol =>
    refine .replaced (outerText scan.frames ++ scan.passed.reverse) character rest ?_ ?_ rfl
    · simp [text, unread]
    · simp [text, replaceNext, rewriteCharacter, symbol]
  | unknown unread noSymbol noHead noClosing =>
    exact .kept (by simp [text, passProblem, note, replaceNext, unread]) rfl
  | unopened unread frames =>
    exact .kept (by simp [text, passProblem, note, replaceNext, unread]) rfl
  | @cut digits body count loopsLeft head value room loops never =>
    obtain ⟨spelt, -, -⟩ := loopHead?_eq_some head
    unfold cutLoop
    split
    next rest closed =>
      obtain ⟨block, rfl⟩ := afterLoop?_suffix closed
      refine .removed (outerText scan.frames ++ scan.passed.reverse)
        ('(' :: (digits ++ ')' :: '{' :: block)) rest ?_ ?_
        (.inr ⟨loops, fun _ isBracket => mem_head isBracket digits block⟩)
      · simp [text, spelt]
      · simp [text]
    · refine .removed (outerText scan.frames ++ scan.passed.reverse)
        ('(' :: (digits ++ ')' :: '{' :: body)) [] ?_ ?_
        (.inr ⟨loops, fun _ isBracket => mem_head isBracket digits body⟩)
      · simp [text, spelt]
      · simp [text, note]
  | @enter digits body count loopsLeft passesLeft head value room loops again =>
    obtain ⟨spelt, -, -⟩ := loopHead?_eq_some head
    refine .removed (outerText scan.frames ++ scan.passed.reverse)
      ('(' :: (digits ++ [')', '{'])) body ?_ ?_
      (.inr ⟨loops, fun _ isBracket => mem_head isBracket digits []⟩)
    · simp [text, spelt]
    · simp [text, enterLoop, outerText]
  | again unread frames passes =>
    exact .kept (by simp [text, nextPass, frames, outerText]) rfl
  | @leave rest frame outerFrames unread frames last =>
    refine .removed (outerText scan.frames ++ scan.passed.reverse) ['}'] rest ?_ ?_ (.inl rfl)
    · simp [text, unread]
    · simp [text, leaveLoop, frames, outerText]
  | unclosed unread frames last =>
    exact .kept (by simp [text, leaveLoop, note, frames, outerText, unread]) rfl

/-- The cursor, the length and the starts of the open loops are where the text says. -/
structure Measured (scan : Scan) : Prop where
  cursor : scan.cursor = (outerText scan.frames).length + scan.passed.length
  length : scan.length = scan.cursor + scan.rest.length
  starts : Starts scan.frames

/-- Whatever is put in the place of the next character, the cursor goes behind it. -/
theorem Measured.replaceNext (measured : scan.Measured) {character : Char} {rest : List Char}
    (unread : scan.rest = character :: rest) (replaced : List Char) :
    (scan.replaceNext replaced rest).Measured := by
  obtain ⟨cursor, length, starts⟩ := measured
  rw [unread, List.length_cons] at length
  refine ⟨?_, ?_, starts⟩
  · simp only [Scan.replaceNext, List.length_append, List.length_reverse]
    omega
  · simp only [Scan.replaceNext]
    omega

theorem Measured.passProblem (measured : scan.Measured) {character : Char} {rest : List Char}
    (unread : scan.rest = character :: rest) (cause : ProblemCause) :
    (scan.passProblem cause character rest).Measured :=
  have noted : (scan.note scan.cursor cause).Measured :=
    ⟨measured.cursor, measured.length, measured.starts⟩
  noted.replaceNext unread [character]

theorem Measured.moved (measured : scan.Measured) (moved : Moved rules scan next) :
    next.Measured := by
  have ⟨cursor, length, starts⟩ := measured
  cases moved with
  | letter unread symbol => exact measured.replaceNext unread _
  | unknown unread noSymbol noHead noClosing => exact measured.passProblem unread _
  | unopened unread frames => exact measured.passProblem unread _
  | cut head value room loops never =>
    unfold cutLoop
    split
    · exact ⟨cursor, rfl, starts⟩
    · exact ⟨cursor, rfl, starts⟩
  | @enter digits body count loopsLeft passesLeft head value room loops again =>
    obtain ⟨spelt, -, -⟩ := loopHead?_eq_some head
    rw [spelt] at length
    simp only [List.length_cons, List.length_append] at length
    have start : scan.cursor = (outerText (⟨scan.passed, scan.cursor, passesLeft⟩ ::
        scan.frames)).length := by
      simp only [outerText, List.length_append, List.length_reverse]
      exact cursor
    refine ⟨start, ?_, start, starts⟩
    simp only [enterLoop]
    omega
  | again unread frames passes =>
    rw [frames] at cursor starts
    refine ⟨starts.1, ?_, starts⟩
    have start := starts.1
    simp only [nextPass, List.length_append, List.length_reverse]
    omega
  | leave unread frames last =>
    rw [unread, List.length_cons] at length
    rw [frames] at cursor starts
    simp only [outerText, List.length_append, List.length_reverse] at cursor
    refine ⟨?_, ?_, starts.2⟩
    · simp only [leaveLoop, List.length_append]
      omega
    · simp only [leaveLoop]
      omega
  | unclosed unread frames last =>
    rw [unread] at length
    rw [frames] at cursor starts
    simp only [outerText, List.length_append, List.length_reverse] at cursor
    refine ⟨?_, length, starts.2⟩
    simp only [leaveLoop, note, List.length_append]
    omega

@[simp] theorem start_text (deepest loopsLeft : Nat) (seed : List Char) :
    (start deepest loopsLeft seed).text = seed := by
  simp [text, start, outerText]

theorem start_measured (deepest loopsLeft : Nat) (seed : List Char) :
    (start deepest loopsLeft seed).Measured :=
  ⟨rfl, (Nat.zero_add _).symm, trivial⟩

end Text

end Scan

end SpringArm.Expansion
