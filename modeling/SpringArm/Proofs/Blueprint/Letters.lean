import SpringArm.Proofs.Blueprint.Composed

/-!
# Letters of a blueprint

The characters for which a blueprint has a template. A description gives distances to letters only,
so the blueprint that is read from it knows nothing but letters.
-/

namespace SpringArm

/-- A letter has a distance because it had one or because it was given one. -/
theorem Templates.find?_putAll_eq_some {templates : Templates} {given : List (Char × Interval)}
    {letter : Char} {distance : Interval}
    (found : (templates.putAll given).find? letter = some distance) :
    templates.find? letter = some distance ∨ (letter, distance) ∈ given := by
  induction given generalizing templates with
  | nil => exact .inl found
  | cons first rest inductionHypothesis =>
    rcases inductionHypothesis found with earlier | later
    · rw [find?_put] at earlier
      split at earlier
      next same =>
        cases earlier
        exact .inr (by simp [same])
      next different => exact .inl earlier
    · exact .inr (List.mem_cons_of_mem first later)

/-- What is given a distance on a line is a letter. -/
theorem Statement.isAlpha_of_template? {line : List Char} {statement : Statement}
    {product : Product} {letter : Char} {distance : Interval}
    (found : read line = some statement)
    (given : statement.template? product = some (letter, distance)) : letter.isAlpha = true := by
  cases statement with
  | create made spelt bounds =>
    simp only [template?, Option.ite_none_right_eq_some, Option.some.injEq, Prod.mk.injEq] at given
    obtain ⟨-, rfl, -⟩ := given
    obtain ⟨_, _, _, _, spelling, _, _⟩ := read_eq_some_iff.mp found
    cases spelling with
    | create separator isLetter parted bounds => exact isLetter
  | _ => cases given

namespace Blueprint

/-- A character has a template. -/
def knows (blueprint : Blueprint) (character : Char) : Bool :=
  (blueprint.massTemplates.find? character).isSome
    || (blueprint.springTemplates.find? character).isSome

theorem knows_eq_false_iff {blueprint : Blueprint} {character : Char} :
    blueprint.knows character = false ↔ blueprint.massTemplates.find? character = none ∧
      blueprint.springTemplates.find? character = none := by
  simp [knows]

/-- A character with a template has one for some product. -/
theorem exists_template_of_knows {blueprint : Blueprint} {character : Char}
    (known : blueprint.knows character = true) :
    ∃ product distance, (blueprint.templates product).find? character = some distance := by
  rw [knows, Bool.or_eq_true, Option.isSome_iff_exists, Option.isSome_iff_exists] at known
  rcases known with ⟨distance, mass⟩ | ⟨distance, spring⟩
  · exact ⟨.mass, distance, mass⟩
  · exact ⟨.spring, distance, spring⟩

/-- The characters that a description makes known are letters. -/
theorem read_knows {text : Option (List Char)} {blueprint : Blueprint} {problems : List Problem}
    (read : (Blueprint.read text).value = .ok (blueprint, problems)) {character : Char}
    (known : blueprint.knows character = true) : character.isAlpha = true := by
  cases text with
  | none =>
    cases read
    cases known
  | some characters =>
    obtain ⟨reading, done, rfl, -⟩ := read_eq_ok_iff.mp read
    obtain ⟨product, distance, template⟩ := exists_template_of_knows known
    have told : (reading.blueprint.templates product).find? character = some distance := by
      cases product <;> exact template
    rw [(Reading.ofText_told done).1.templates product] at told
    rcases Templates.find?_putAll_eq_some told with none | given
    · cases none
    · obtain ⟨statement, member, template⟩ := List.mem_filterMap.mp given
      obtain ⟨line, -, spelt⟩ := List.mem_filterMap.mp member
      exact Statement.isAlpha_of_template? spelt template

end Blueprint

end SpringArm
