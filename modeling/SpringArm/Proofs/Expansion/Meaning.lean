import SpringArm.Expansion.Basic
import SpringArm.Proofs.Expansion.Moves

/-!
# Expansions of programs

Expanding a program writes its meaning in its place. The proof is by induction on the program: a run
that stands before a program leads to the state behind its meaning, or finds the text too long, but
only if the text it started with and the meaning are together longer than the limit. That is if
there is room for all its loops in each other. If there is not, the same induction finds the place
where the run ends.
-/

namespace SpringArm.Expansion

/-- A run that stands before a program for whose loops there is room leads behind its meaning. The
loops that it enters are some of those that the program opens. -/
def Program.Expands (rules : List Rule) (longest : Int) (program : Program) : Prop :=
  ∀ (scan : Scan) (tail : List Char), scan.Aligned → scan.rest = program.text ++ tail →
    program.text.count '(' ≤ scan.loopsLeft → scan.frames.length + program.depth ≤ scan.deepest →
    ∃ problems loopsLeft, scan.loopsLeft ≤ loopsLeft + program.text.count '(' ∧
      Scan.Leads rules longest (scan.length + (program.meaning rules).length) scan
        (scan.passOver (program.meaning rules) tail problems loopsLeft)

/-- A run that stands before a program for whose loops there is no room finds them too deep. -/
def Program.Overflows (rules : List Rule) (longest : Int) (program : Program) : Prop :=
  ∀ (scan : Scan) (tail : List Char), scan.Aligned → scan.rest = program.text ++ tail →
    program.text.count '(' ≤ scan.loopsLeft → scan.frames.length ≤ scan.deepest →
    scan.deepest < scan.frames.length + program.depth →
    Scan.Overflows rules longest (scan.length + (program.meaning rules).length) scan

section Programs

variable {rules : List Rule} {longest : Int}

theorem Program.expands_done : done.Expands rules longest := by
  intro scan tail aligned unread loops room
  have same := aligned.passOver_nil
  rw [unread] at same
  exact ⟨scan.problems, scan.loopsLeft, Nat.le_add_right _ _, same.symm ▸ .refl _ _⟩

/-- A letter opens no loop. -/
theorem Program.count_letter (symbol : Letter) (rest : Program) :
    (letter symbol rest).text.count '(' = rest.text.count '(' := by
  have plain := Plain.symbol symbol.isSymbol symbol.character (List.mem_singleton_self _)
  simp only [List.mem_cons, List.not_mem_nil, or_false, not_or] at plain
  rw [text, List.count_cons_of_ne plain.1]

/-- A letter in front of a text is rewritten first. -/
theorem Letter.leads (rules : List Rule) (longest : Int) (symbol : Letter) {scan : Scan}
    {rest : List Char} (aligned : scan.Aligned) (unread : scan.rest = symbol.character :: rest) :
    ∃ problems, Scan.Leads rules longest scan.length scan
      (scan.passOver (rewrite rules [symbol.character]) rest problems scan.loopsLeft) := by
  have plain := Plain.symbol symbol.isSymbol symbol.character (List.mem_singleton_self _)
  simp only [List.mem_cons, List.not_mem_nil, or_false, not_or] at plain
  have written : rewrite rules [symbol.character] = rewriteCharacter rules symbol.character :=
    List.flatMap_singleton ..
  rw [written]
  exact aligned.leads_character longest rules unread plain.1 plain.2.2.2

theorem Program.Expands.letter {rest : Program} (restExpands : rest.Expands rules longest)
    (symbol : Letter) : (Program.letter symbol rest).Expands rules longest := by
  intro scan tail aligned unread loops room
  rw [count_letter] at loops ⊢
  rw [text, List.cons_append] at unread
  obtain ⟨problems, head⟩ := symbol.leads rules longest aligned unread
  obtain ⟨later, loopsLeft, entered, others⟩ := restExpands _ tail
    (Scan.passOver_aligned scan (rewrite rules [symbol.character]) (rest.text ++ tail)
      problems scan.loopsLeft) rfl loops room
  rw [Scan.passOver_passOver] at others
  have length := aligned.length_eq unread
  refine ⟨later, loopsLeft, entered, ?_⟩
  rw [meaning]
  refine (head.mono (Nat.le_add_right _ _)).trans (others.mono ?_)
  simp only [Scan.passOver, List.length_append] at length ⊢
  omega

/-- The loop itself, up to its closing brace: it is cut out, or its body is expanded once and what
that gives is rewritten in the passes that are left. -/
theorem Program.Expands.readings {body : Program} (bodyExpands : body.Expands rules longest)
    (plainRules : PlainRules rules) (within : longest ≤ (Decimal.integerDigitLimit : Int))
    (count : LoopCount) {scan : Scan} {after : List Char} (aligned : scan.Aligned)
    (unread : scan.rest = '(' :: (count.digits ++ ')' :: '{' :: (body.text ++ '}' :: after)))
    {fewer : Nat} (loops : scan.loopsLeft = fewer + 1) (enough : body.text.count '(' ≤ fewer)
    (room : scan.frames.length + (if count.value = 0 then 0 else body.depth) < scan.deepest) :
    ∃ problems loopsLeft, fewer ≤ loopsLeft + body.text.count '(' ∧
      Scan.Leads rules longest (scan.length + (count.readings rules (body.meaning rules)).length)
        scan
        (scan.passOver (count.readings rules (body.meaning rules)) after problems loopsLeft) := by
  have length := aligned.length_eq unread
  simp only [List.length_append, List.length_cons] at length
  have outerRoom : scan.frames.length < scan.deepest := by omega
  unfold LoopCount.readings
  cases value : count.value with
  | zero =>
    have closed : afterLoop? 0 (body.text ++ '}' :: after) = some after := by
      rw [body.afterLoop?_text, afterLoop?]
    exact ⟨scan.problems, fewer, Nat.le_add_right _ _,
      aligned.leads_cutLoop longest rules within unread outerRoom loops value closed⟩
  | succ more =>
    rw [if_neg (by omega)] at room
    have entered := aligned.leads_enterLoop longest rules within unread outerRoom loops value
    obtain ⟨problems, loopsLeft, used, once⟩ := bodyExpands _ ('}' :: after)
      (Scan.inLoop_aligned scan (body.text ++ '}' :: after) scan.problems fewer more) rfl enough
      (by simp only [Scan.inLoop, List.length_cons]; omega)
    obtain ⟨later, passes⟩ := Scan.leads_passes longest scan plainRules
      (body.meaning_plain plainRules) more after problems loopsLeft
    have longer := length_le_iterate plainRules.writing more (body.meaning rules)
    refine ⟨later, loopsLeft, used, (entered.mono (Nat.le_add_right _ _)).trans
      ((once.mono ?_).trans (passes.mono ?_))⟩
    · simp only [Scan.inLoop, List.length_append, List.length_cons]
      omega
    · dsimp only
      omega

/-- A loop in front of a program, up to the first closing brace. -/
theorem Program.unread_loop {count : LoopCount} {body rest : Program} {scan : Scan}
    {tail : List Char} (unread : scan.rest = (loop count body rest).text ++ tail) :
    scan.rest = '(' :: (count.digits ++ ')' :: '{' ::
      (body.text ++ '}' :: (rest.text ++ tail))) := by
  rw [unread]
  simp [text]

theorem Program.Expands.loop {body rest : Program} (bodyExpands : body.Expands rules longest)
    (restExpands : rest.Expands rules longest) (plainRules : PlainRules rules)
    (within : longest ≤ (Decimal.integerDigitLimit : Int)) (count : LoopCount) :
    (Program.loop count body rest).Expands rules longest := by
  intro scan tail aligned unread loops room
  have spelt := unread_loop unread
  rw [count_loop] at loops ⊢
  rw [depth] at room
  obtain ⟨fewer, some⟩ : ∃ fewer, scan.loopsLeft = fewer + 1 :=
    Nat.exists_eq_add_of_le' (by omega)
  obtain ⟨problems, loopsLeft, used, overLoop⟩ := bodyExpands.readings plainRules within count
    aligned spelt some (by omega) (by omega)
  obtain ⟨later, finallyLeft, usedLater, others⟩ := restExpands _ tail
    (Scan.passOver_aligned scan (count.readings rules (body.meaning rules)) (rest.text ++ tail)
      problems loopsLeft) rfl (by simp only [Scan.passOver]; omega)
      (by simp only [Scan.passOver]; omega)
  rw [Scan.passOver_passOver] at others
  have length := aligned.length_eq spelt
  refine ⟨later, finallyLeft, ?_, (overLoop.mono ?_).trans (others.mono ?_)⟩
  · simp only [Scan.passOver] at usedLater
    omega
  · simp only [meaning, List.length_append]
    omega
  · simp only [meaning, Scan.passOver, List.length_append, List.length_cons] at length ⊢
    omega

/-- Every program for whose loops there is room expands to its meaning. -/
theorem Program.expands (plainRules : PlainRules rules)
    (within : longest ≤ (Decimal.integerDigitLimit : Int)) (program : Program) :
    program.Expands rules longest := by
  induction program with
  | done => exact expands_done
  | letter symbol rest restExpands => exact restExpands.letter symbol
  | loop count body rest bodyExpands restExpands =>
    exact bodyExpands.loop restExpands plainRules within count

theorem Program.Overflows.letter {rest : Program} (restOverflows : rest.Overflows rules longest)
    (symbol : Letter) : (Program.letter symbol rest).Overflows rules longest := by
  intro scan tail aligned unread loops opened deep
  rw [count_letter] at loops
  rw [text, List.cons_append] at unread
  obtain ⟨problems, head⟩ := symbol.leads rules longest aligned unread
  have others := restOverflows _ tail
    (Scan.passOver_aligned scan (rewrite rules [symbol.character]) (rest.text ++ tail)
      problems scan.loopsLeft) rfl loops opened deep
  have length := aligned.length_eq unread
  refine (head.mono (Nat.le_add_right _ _)).overflows (others.mono ?_)
  simp only [meaning, Scan.passOver, List.length_append] at length ⊢
  omega

/-- A loop is too deep, or its body is, or what comes behind it. -/
theorem Program.Overflows.loop {body rest : Program} (bodyOverflows : body.Overflows rules longest)
    (restOverflows : rest.Overflows rules longest) (plainRules : PlainRules rules)
    (within : longest ≤ (Decimal.integerDigitLimit : Int)) (count : LoopCount) :
    (Program.loop count body rest).Overflows rules longest := by
  intro scan tail aligned unread loops opened deep
  have spelt := unread_loop unread
  have length := aligned.length_eq spelt
  rw [count_loop] at loops
  rw [depth] at deep
  rw [meaning, List.length_append]
  obtain ⟨fewer, some⟩ : ∃ fewer, scan.loopsLeft = fewer + 1 :=
    Nat.exists_eq_add_of_le' (by omega)
  by_cases full : scan.deepest ≤ scan.frames.length
  · exact (aligned.overflows_loopHead longest rules within spelt full).mono (Nat.le_add_right _ _)
  by_cases inside : scan.deepest ≤
      scan.frames.length + if count.value = 0 then 0 else body.depth
  · obtain ⟨more, value⟩ : ∃ more, count.value = more + 1 := by
      apply Nat.exists_eq_succ_of_ne_zero
      intro never
      rw [if_pos never] at inside
      exact full inside
    rw [if_neg (by omega)] at inside
    have entered :=
      aligned.leads_enterLoop longest rules within spelt (Nat.not_le.mp full) some value
    have overflows := bodyOverflows _ ('}' :: (rest.text ++ tail))
      (Scan.inLoop_aligned scan _ scan.problems fewer more) rfl (by simp only [Scan.inLoop]; omega)
      (by simp only [Scan.inLoop, List.length_cons]; omega)
      (by simp only [Scan.inLoop, List.length_cons]; omega)
    have longer := length_le_iterate plainRules.writing more (body.meaning rules)
    refine (entered.mono (Nat.le_add_right _ _)).overflows (overflows.mono ?_)
    simp only [LoopCount.readings, value, Scan.inLoop, List.length_append, List.length_cons]
      at length longer ⊢
    omega
  · obtain ⟨problems, loopsLeft, used, overLoop⟩ := (body.expands plainRules within).readings
      plainRules within count aligned spelt some (by omega) (Nat.not_le.mp inside)
    have others := restOverflows _ tail
      (Scan.passOver_aligned scan (count.readings rules (body.meaning rules)) (rest.text ++ tail)
        problems loopsLeft) rfl (by simp only [Scan.passOver]; omega) opened
        (by simp only [Scan.passOver]; omega)
    refine (overLoop.mono ?_).overflows (others.mono ?_)
    · omega
    · simp only [Scan.passOver, List.length_append, List.length_cons] at length ⊢
      omega

/-- Every program for whose loops there is no room is found too deep. -/
theorem Program.overflows (plainRules : PlainRules rules)
    (within : longest ≤ (Decimal.integerDigitLimit : Int)) (program : Program) :
    program.Overflows rules longest := by
  induction program with
  | done =>
    intro scan tail aligned unread loops opened deep
    exact absurd deep (Nat.not_lt.mpr opened)
  | letter symbol rest restOverflows => exact restOverflows.letter symbol
  | loop count body rest bodyOverflows restOverflows =>
    exact bodyOverflows.loop restOverflows plainRules within count

end Programs

section Endings

variable {rules : List Rule} {longest : Int} {deepest : Nat}

/-- A seed that is too long from the start is not read. -/
theorem ending_of_long {seed : List Char} (nonempty : seed ≠ []) (long : longest < seed.length) :
    ending rules deepest (some longest) seed = .overlong [] := by
  obtain ⟨first, rest, rfl⟩ := List.exists_cons_of_ne_nil nonempty
  apply Scan.run_of_step_error
  have tooLong : (Scan.start deepest (loopAllowance rules (first :: rest))
      (first :: rest)).isOverlong (some longest) = true := decide_eq_true long
  exact if_pos tooLong

end Endings

end SpringArm.Expansion
