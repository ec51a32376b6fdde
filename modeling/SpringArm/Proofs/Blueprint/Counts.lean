import SpringArm.Proofs.Blueprint.Composed
import SpringArm.Proofs.Decimal.Digits

/-!
# Counts out of reach

The only statement that cannot be carried out is one with a count of too many digits, and a
description with such a statement fails. Every other description is read, with the problems of its
lines.
-/

namespace SpringArm

/-- A statement of a line can be carried out if its count, where it gives one, has not too many
digits. -/
theorem Statement.inReach_iff {line : List Char} {statement : Statement}
    (found : read line = some statement) :
    statement.InReach ↔ ∀ product count, statement = random product count →
      count.digits.length ≤ Decimal.integerDigitLimit := by
  cases statement with
  | random product count =>
    obtain ⟨_, _, _, _, spelling, _, _⟩ := read_eq_some_iff.mp found
    cases spelling with
    | random separator spelt =>
      obtain ⟨-, plain, -⟩ := spelt
      have value := Decimal.integerOfDigits_of_signed count.negative plain
      constructor
      · rintro ⟨number, read⟩ _ _ ⟨⟩
        by_contra many
        rw [Count.value, value, if_pos (Nat.not_le.mp many)] at read
        cases read
      · intro few
        exact ⟨_, value.trans (if_neg (Nat.not_lt.mpr (few product count rfl)))⟩
  | _ => exact iff_of_true trivial fun _ _ same => nomatch same

/-- A description is read exactly if no count in it has too many digits. -/
theorem Blueprint.read_succeeds_iff (text : List Char) :
    (∃ blueprint problems, (Blueprint.read (some text)).value = .ok (blueprint, problems)) ↔
      ∀ product count, Statement.random product count ∈ Reading.statements text →
        count.digits.length ≤ Decimal.integerDigitLimit := by
  have succeeds : (∃ blueprint problems,
      (Blueprint.read (some text)).value = .ok (blueprint, problems)) ↔
        (Reading.ofText text).2 = none := by
    constructor
    · rintro ⟨blueprint, problems, read⟩
      obtain ⟨reading, done, -⟩ := read_eq_ok_iff.mp read
      exact congrArg (·.2) done
    · intro done
      exact ⟨_, _, read_eq_ok_iff.mpr ⟨_, Prod.ext rfl done, rfl, rfl⟩⟩
  rw [succeeds, Reading.ofText_succeeds_iff]
  constructor
  · intro inReach product count member
    obtain ⟨line, -, found⟩ := List.mem_filterMap.mp member
    exact (Statement.inReach_iff found).mp (inReach _ member) product count rfl
  · intro few statement member
    obtain ⟨line, -, found⟩ := List.mem_filterMap.mp member
    refine (Statement.inReach_iff found).mpr ?_
    rintro product count rfl
    exact few product count member

/-- A text without line breaks is one line. -/
theorem Reading.numberedLines_unbroken {line : List Char} (noFeed : '\n' ∉ line)
    (noReturn : '\r' ∉ line) : numberedLines line = [(line, 0)] := by
  have whole : Text.dropEndWhile (· == '\r') line = line := by
    rw [Text.dropEndWhile, List.dropWhile_eq_self_iff.mpr, List.reverse_reverse]
    intro nonempty carriage
    have member := List.mem_reverse.mp (List.getElem_mem nonempty)
    rw [beq_iff_eq.mp carriage] at member
    exact noReturn member
  rw [numberedLines, Text.splitLineFeeds_unbroken noFeed, List.map_singleton, whole]
  rfl

/-- A description of one statement that cannot be carried out fails with its fault. -/
theorem Blueprint.read_of_fault {line : List Char} {statement : Statement}
    {fault : Decimal.IntegerFault} (noFeed : '\n' ∉ line) (noReturn : '\r' ∉ line)
    (found : Statement.read line = some statement)
    (failed : ({} : Blueprint).apply statement = .error fault) :
    (Blueprint.read (some line)).value = .error fault := by
  have stopped : Reading.readLine {} (line, 0) = .error fault := by
    simp only [Reading.readLine, if_pos (Statement.carriesData_of_read found), found, failed]
    rfl
  have reading : Reading.ofText line = ({}, some fault) := by
    rw [Reading.ofText, Reading.numberedLines_unbroken noFeed noReturn, stepwise, stopped]
  rw [Blueprint.read, reading]

/-- A number of random masses with too many digits is not read. -/
theorem Blueprint.read_of_manyDigits {digits : List Char} (plain : Digits digits)
    (many : Decimal.integerDigitLimit < digits.length) :
    (Blueprint.read (some ("randomMasses ".toList ++ digits))).value =
      .error (.tooManyDigits digits.length) := by
  have spelt : (Statement.random .mass ⟨false, digits⟩).Body ([' '] ++ digits) :=
    .random ⟨List.cons_ne_nil _ _, List.forall_mem_singleton.mpr rfl⟩
      ⟨List.ne_nil_of_length_pos (Nat.zero_lt_of_lt many), plain, rfl⟩
  have spells : (Statement.random .mass ⟨false, digits⟩).Spells
      ("randomMasses ".toList ++ digits) := by
    have keyword : "randomMasses ".toList =
        [] ++ (Keyword.random .mass).spelling.toList ++ [' '] := by decide
    refine ⟨[], _, [], nofun, spelt, nofun, ?_⟩
    rw [keyword, List.append_nil, List.append_assoc, List.append_assoc]
    rfl
  have unbroken : ∀ {character : Char}, character ∉ "randomMasses ".toList →
      character.isDigit = false → character ∉ "randomMasses ".toList ++ digits := by
    intro character solid noDigit member
    rcases List.mem_append.mp member with inside | digit
    · exact solid inside
    · rw [plain character digit] at noDigit
      cases noDigit
  refine read_of_fault (unbroken (by decide) rfl) (unbroken (by decide) rfl)
    (Statement.read_eq_some_iff.mpr spells) ?_
  have value := Decimal.integerOfDigits_of_signed false plain
  rw [if_pos many] at value
  simp only [apply, Count.value, value]
  rfl

end SpringArm
