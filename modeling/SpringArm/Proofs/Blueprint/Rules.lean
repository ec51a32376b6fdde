import Mathlib.Data.List.TakeWhile
import SpringArm.Proofs.Blueprint.Reading

/-!
# Rules of a description

The right sides of rules that were read from a description are not empty and consist of letters,
digits, underscores and dashes. This is shown for a rule at the start of a text, for the rules of a
line, and for every line of a description.
-/

namespace SpringArm

/-- The right side of a rule can stand on a line. -/
def Rule.Spelt (rule : Rule) : Prop :=
  rule.replacement ≠ [] ∧
    ∀ character ∈ rule.replacement, Statement.isReplacementCharacter character = true

namespace Statement

theorem readReplacement_spelt {text replacement rest : List Char}
    (found : readReplacement text = some (replacement, rest)) :
    replacement ≠ [] ∧ ∀ character ∈ replacement, isReplacementCharacter character = true := by
  unfold readReplacement at found
  split at found
  · cases found
  next first more taken =>
    simp only [Option.some.injEq, Prod.mk.injEq] at found
    rw [← found.1]
    refine ⟨List.cons_ne_nil _ _, fun character member => ?_⟩
    rw [← taken] at member
    exact List.mem_takeWhile_imp member

theorem readRule_spelt {text rest : List Char} {rule : Rule}
    (found : readRule text = some (rule, rest)) : rule.Spelt := by
  unfold readRule at found
  simp only [Option.bind_eq_bind, Option.bind_eq_some_iff, Prod.exists] at found
  obtain ⟨search, _, _, _, _, _, _, replacement, _, replacementFound, final⟩ := found
  simp only [Option.pure_def, Option.some.injEq, Prod.mk.injEq] at final
  rw [← final.1]
  exact readReplacement_spelt replacementFound

theorem rulesOf?_spelt {text : List Char} {rules : List Rule} (found : rulesOf? text = some rules) :
    ∀ rule ∈ rules, rule.Spelt := by
  fun_induction rulesOf? text generalizing rules with
  | case1 text gapless =>
    cases found
    exact fun rule member => absurd member List.not_mem_nil
  | case2 text first more gapless unread => cases found
  | case3 text first more gapless rule rest read _ behind inductionHypothesis =>
    obtain ⟨others, foundOthers, rfl⟩ := Option.map_eq_some_iff.mp found
    exact List.forall_mem_cons.mpr ⟨readRule_spelt read, inductionHypothesis foundOthers⟩
  | case4 text first more gapless rule rest read _ notBehind => cases found

theorem read_rules_spelt {line : List Char} {spelt : List Rule}
    (found : read line = some (.rules spelt)) : ∀ rule ∈ spelt, rule.Spelt := by
  simp only [read, Option.bind_eq_bind, Option.bind_eq_some_iff] at found
  obtain ⟨keyword, -, found⟩ := found
  cases keyword with
  | rules =>
    simp only [ofKeyword?] at found
    split at found
    next first more ofText =>
      cases found
      exact rulesOf?_spelt ofText
    · cases found
  | place part =>
    simp only [ofKeyword?] at found
    split at found <;> cases found
  | window =>
    obtain ⟨bounds, -, found⟩ := Option.map_eq_some_iff.mp found
    cases found
  | create product =>
    obtain ⟨template, -, found⟩ := Option.map_eq_some_iff.mp found
    cases found
  | options =>
    simp only [ofKeyword?] at found
    split at found
    · cases found
    · split at found <;> cases found
  | random product =>
    simp only [ofKeyword?] at found
    split at found
    · obtain ⟨count, -, found⟩ := Option.map_eq_some_iff.mp found
      cases found
    · cases found

end Statement

namespace Blueprint

/-- All rules of a blueprint can stand on a line. -/
def RulesSpelt (blueprint : Blueprint) : Prop :=
  ∀ rule ∈ blueprint.rules, rule.Spelt

theorem apply_rulesSpelt {blueprint : Blueprint} (spelt : blueprint.RulesSpelt) {line : List Char}
    {statement : Statement} (read : Statement.read line = some statement)
    {applied : Logged Blueprint} (done : blueprint.apply statement = .ok applied) :
    applied.value.RulesSpelt := by
  cases statement with
  | rules rules =>
    cases done
    exact List.forall_mem_append.mpr ⟨spelt, Statement.read_rules_spelt read⟩
  | place part first more =>
    cases done
    cases part <;> exact spelt
  | window bounds =>
    cases done
    exact spelt
  | create product letter bounds =>
    cases done
    cases product <;> exact spelt
  | options words =>
    cases done
    exact spelt
  | random product count =>
    obtain ⟨number, -, done⟩ := bind_eq_ok.mp done
    cases done
    cases product <;> exact spelt

end Blueprint

namespace Reading

theorem readLine_rulesSpelt {reading next : Reading} (spelt : reading.blueprint.RulesSpelt)
    {line : List Char × Nat} (read : reading.readLine line = .ok next) :
    next.blueprint.RulesSpelt := by
  obtain ⟨text, number⟩ := line
  unfold readLine at read
  dsimp only at read
  split at read
  · split at read
    · cases read
      exact spelt
    next statement spells =>
      obtain ⟨applied, done, read⟩ := bind_eq_ok.mp read
      cases read
      exact Blueprint.apply_rulesSpelt spelt spells done
  · cases read
    exact spelt

end Reading

namespace Blueprint

/-- The rules of every description can stand on a line. -/
theorem read_rulesSpelt {text : Option (List Char)} {blueprint : Blueprint}
    {problems : List Problem} (read : (Blueprint.read text).value = .ok (blueprint, problems)) :
    blueprint.RulesSpelt := by
  cases text with
  | none =>
    cases read
    exact fun rule member => absurd member List.not_mem_nil
  | some characters =>
    have spelt : (Reading.ofText characters).1.blueprint.RulesSpelt :=
      stepwise_invariant (fun reading => reading.blueprint.RulesSpelt)
        (fun rule member => absurd member List.not_mem_nil)
        fun _ _ _ _ before lineRead => Reading.readLine_rulesSpelt before lineRead
    obtain ⟨reading, done, rfl, -⟩ := read_eq_ok_iff.mp read
    rw [done] at spelt
    exact spelt

end Blueprint

end SpringArm
