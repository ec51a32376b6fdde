/-!
# Stepwise

A fallible step applied to the items of a list in turn. When a step fails the state reached before
it is kept beside the fault, because what has been done so far stays visible.
-/

namespace SpringArm

/-- Two actions in a row come to their end if both do. -/
theorem bind_eq_ok {ε α β : Type} {action : Except ε α} {next : α → Except ε β} {result : β} :
    (action >>= next) = .ok result ↔ ∃ value, action = .ok value ∧ next value = .ok result := by
  cases action with
  | error fault => simp [bind, Except.bind]
  | ok value => simp [bind, Except.bind]

/-- Two actions in a row fail if the first one does, or the second one behind it. -/
theorem bind_eq_error {ε α β : Type} {action : Except ε α} {next : α → Except ε β} {fault : ε} :
    (action >>= next) = .error fault ↔
      action = .error fault ∨ ∃ value, action = .ok value ∧ next value = .error fault := by
  cases action with
  | error fault => simp [bind, Except.bind]
  | ok value => simp [bind, Except.bind]

variable {σ α ε : Type}

/-- Applies a step to each item in turn, up to the first fault. The result is the last state that
was reached and the fault, if there was one. -/
def stepwise (step : σ → α → Except ε σ) (state : σ) : List α → σ × Option ε
  | [] => (state, none)
  | item :: rest =>
    match step state item with
    | .ok next => stepwise step next rest
    | .error fault => (state, some fault)

/-- The items of a concatenation are applied one part after the other. -/
theorem stepwise_append (step : σ → α → Except ε σ) (state : σ) (first second : List α) :
    stepwise step state (first ++ second) =
      match stepwise step state first with
      | (reached, none) => stepwise step reached second
      | (reached, some fault) => (reached, some fault) := by
  induction first generalizing state with
  | nil => rfl
  | cons item rest inductionHypothesis =>
    cases outcome : step state item with
    | ok next => simp [stepwise, outcome, inductionHypothesis]
    | error fault => simp [stepwise, outcome]

/-- The fault that is kept is that of a step on the state beside it. -/
theorem stepwise_eq_fault {step : σ → α → Except ε σ} {state reached : σ} {items : List α}
    {fault : ε} (stopped : stepwise step state items = (reached, some fault)) :
    ∃ item ∈ items, step reached item = .error fault := by
  induction items generalizing state with
  | nil => cases stopped
  | cons item rest inductionHypothesis =>
    cases outcome : step state item with
    | ok next =>
      rw [stepwise, outcome] at stopped
      obtain ⟨later, member, fails⟩ := inductionHypothesis stopped
      exact ⟨later, List.mem_cons_of_mem item member, fails⟩
    | error first =>
      rw [stepwise, outcome] at stopped
      cases stopped
      exact ⟨item, List.mem_cons_self, outcome⟩

/-- What holds at the start and is kept by every step holds of the last state that was reached. -/
theorem stepwise_invariant {step : σ → α → Except ε σ} (holds : σ → Prop) {state : σ}
    {items : List α} (start : holds state)
    (kept : ∀ before item after, item ∈ items → holds before → step before item = .ok after →
      holds after) :
    holds (stepwise step state items).1 := by
  induction items generalizing state with
  | nil => exact start
  | cons item rest inductionHypothesis =>
    cases outcome : step state item with
    | ok next =>
      simp only [stepwise, outcome]
      apply inductionHypothesis (kept state item next List.mem_cons_self start outcome)
      intro before later after member
      exact kept before later after (List.mem_cons_of_mem item member)
    | error fault => simpa [stepwise, outcome] using start

/-- What holds at the start, and of the items done so far after every step, holds of the items that
are done in the end. These are all of them if no step fails. -/
theorem stepwise_done {step : σ → α → Except ε σ} (holds : List α → σ → Prop) {state : σ}
    (items : List α) (start : holds [] state)
    (kept : ∀ done before item after, done ++ [item] <+: items →
      stepwise step state done = (before, none) → holds done before →
      step before item = .ok after → holds (done ++ [item]) after) :
    ∃ done, done <+: items ∧ stepwise step state done = ((stepwise step state items).1, none) ∧
      holds done (stepwise step state items).1 ∧
      ((stepwise step state items).2 = none → done = items) := by
  suffices fromHere : ∀ done left current, done ++ left = items →
      stepwise step state done = (current, none) → holds done current →
      ∃ all, all <+: items ∧ stepwise step state all = ((stepwise step current left).1, none) ∧
        holds all (stepwise step current left).1 ∧
        ((stepwise step current left).2 = none → all = items) from
    fromHere [] items state rfl rfl start
  intro done left
  induction left generalizing done with
  | nil =>
    intro current parts reached before
    exact ⟨done, ⟨[], parts⟩, reached, before, fun _ => by simpa using parts⟩
  | cons item rest inductionHypothesis =>
    intro current parts reached before
    have next : (done ++ [item]) ++ rest = items := by simpa using parts
    cases outcome : step current item with
    | ok after =>
      have reachedNext : stepwise step state (done ++ [item]) = (after, none) := by
        simp [stepwise_append, reached, stepwise, outcome]
      simpa only [stepwise, outcome] using
        inductionHypothesis (done ++ [item]) after next reachedNext
        (kept done current item after ⟨rest, next⟩ reached before outcome)
    | error fault =>
      simp only [stepwise, outcome]
      exact ⟨done, ⟨item :: rest, parts⟩, reached, before, fun none => by cases none⟩

/-- What holds at the start, and of the items done so far after every step, holds of all items when
no step fails. -/
theorem stepwise_prefixes {step : σ → α → Except ε σ} (holds : List α → σ → Prop)
    {state final : σ} {items : List α} (start : holds [] state)
    (kept : ∀ done before item after, holds done before → step before item = .ok after →
      holds (done ++ [item]) after)
    (ends : stepwise step state items = (final, none)) : holds items final := by
  obtain ⟨done, -, -, held, all⟩ := stepwise_done holds items start
    fun done before item after _ _ => kept done before item after
  rw [ends] at held all
  exact all rfl ▸ held

/-- If only the item decides whether a step fails, only the items decide whether one of them
does. -/
theorem stepwise_succeeds_iff {step : σ → α → Except ε σ} {succeeds : α → Prop}
    (each : ∀ state item, (∃ next, step state item = .ok next) ↔ succeeds item)
    (state : σ) (items : List α) :
    (stepwise step state items).2 = none ↔ ∀ item ∈ items, succeeds item := by
  induction items generalizing state with
  | nil => simp [stepwise]
  | cons item rest inductionHypothesis =>
    rw [List.forall_mem_cons, ← each state item]
    cases outcome : step state item with
    | ok next => simp [stepwise, outcome, inductionHypothesis]
    | error fault => simp [stepwise, outcome]

/-- Two steps that agree on states and items seen in two ways agree on whole lists. They may need
something of the first state that every step keeps. -/
theorem stepwise_map {τ β : Type} {step : σ → α → Except ε σ} {other : τ → β → Except ε τ}
    (view : σ → τ) (itemView : α → β) (holds : σ → Prop)
    (kept : ∀ before item after, holds before → step before item = .ok after → holds after)
    (agree : ∀ state item, holds state →
      other (view state) (itemView item) = (step state item).map view)
    (state : σ) (start : holds state) (items : List α) :
    stepwise other (view state) (items.map itemView) =
      (view (stepwise step state items).1, (stepwise step state items).2) := by
  induction items generalizing state with
  | nil => rfl
  | cons item rest inductionHypothesis =>
    simp only [List.map_cons, stepwise, agree state item start]
    cases outcome : step state item with
    | ok next => exact inductionHypothesis next (kept state item next start outcome)
    | error fault => rfl

/-- Items that change nothing can be left out, where the states that are reached have in common what
makes them idle. -/
theorem stepwise_filter {step : σ → α → Except ε σ} (holds : σ → Prop) (counts : α → Bool)
    (kept : ∀ before item after, holds before → step before item = .ok after → holds after)
    (idle : ∀ state item, holds state → counts item = false → step state item = .ok state)
    (state : σ) (start : holds state) (items : List α) :
    stepwise step state (items.filter counts) = stepwise step state items := by
  induction items generalizing state with
  | nil => rfl
  | cons item rest inductionHypothesis =>
    cases counted : counts item with
    | false =>
      rw [List.filter_cons_of_neg (by simp [counted]), stepwise, idle state item start counted]
      exact inductionHypothesis state start
    | true =>
      rw [List.filter_cons_of_pos counted, stepwise, stepwise]
      cases outcome : step state item with
      | ok next => exact inductionHypothesis next (kept state item next start outcome)
      | error fault => rfl

end SpringArm
