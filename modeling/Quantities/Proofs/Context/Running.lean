import Quantities.Evaluation.Statement

/-!
Statements that run others: what is known of the statements inside from how the whole ends, and
what holds of a loop from what holds of one round.
-/

namespace Quantities

namespace Step

variable {α : Type} {answer : Option (Step α)} {mark : ScopeMark} {after : Context}

theorem left_eq_some {result : Except Fault α}
    (ended : (answer.map fun step => step.leave mark) = some ⟨result, after⟩) :
    ∃ inner, answer = some ⟨result, inner⟩ ∧ after = inner.leave mark := by
  obtain ⟨⟨result, inner⟩, rfl, left⟩ := Option.map_eq_some_iff.mp ended
  cases left
  exact ⟨inner, rfl, rfl⟩

/-- The result of a statement in a scope of its own is forgotten, and so is the scope. -/
theorem scoped_eq_ok {v : Option Value}
    (ended : (answer.map fun step => (step.leave mark).silent) = some ⟨.ok v, after⟩) :
    v = none ∧ ∃ result inner, answer = some ⟨.ok result, inner⟩ ∧ after = inner.leave mark := by
  obtain ⟨⟨result, inner⟩, rfl, left⟩ := Option.map_eq_some_iff.mp ended
  cases result with
  | error fault => cases left
  | ok result =>
      cases left
      exact ⟨rfl, result, inner, rfl, rfl⟩

theorem scoped_eq_error {fault : Fault}
    (ended : (answer.map fun step => (step.leave mark).silent) = some ⟨.error fault, after⟩) :
    ∃ inner, answer = some ⟨.error fault, inner⟩ := by
  obtain ⟨⟨result, inner⟩, rfl, left⟩ := Option.map_eq_some_iff.mp ended
  cases result with
  | error other =>
      cases left
      exact ⟨inner, rfl⟩
  | ok result => cases left

end Step

namespace Evaluation

variable {α : Type} {condition : Context → Except Fault Bool}
  {body : Context → Option (Step α)}

/-- What every round keeps holds at the end of a loop, which has no value. -/
theorem repeatWhile_ok (invariant : Context → Prop)
    (round : ∀ {before v between}, invariant before → condition before = .ok true →
      body before = some ⟨.ok v, between⟩ → invariant between)
    {rounds : Nat} {before after : Context} {v : Option Value} (holds : invariant before)
    (ended : repeatWhile condition body rounds before = some ⟨.ok v, after⟩) :
    v = none ∧ invariant after := by
  induction rounds generalizing before with
  | zero =>
      rw [repeatWhile] at ended
      split at ended
      next => cases ended
      next =>
        cases ended
        exact ⟨rfl, holds⟩
      next => cases ended
  | succ rounds ih =>
      rw [repeatWhile] at ended
      split at ended
      next => cases ended
      next =>
        cases ended
        exact ⟨rfl, holds⟩
      next goesOn =>
        split at ended
        next => cases ended
        next => cases ended
        next result between ran => exact ih (round holds goesOn ran) ended

/-- A loop that fails does so in the condition or in the body, after rounds that went well. -/
theorem repeatWhile_error (invariant : Context → Prop)
    (round : ∀ {before v between}, invariant before → condition before = .ok true →
      body before = some ⟨.ok v, between⟩ → invariant between)
    {rounds : Nat} {before after : Context} {fault : Fault} (holds : invariant before)
    (ended : repeatWhile condition body rounds before = some ⟨.error fault, after⟩) :
    ∃ start, invariant start ∧
      (condition start = .error fault ∧ after = start ∨
        condition start = .ok true ∧ body start = some ⟨.error fault, after⟩) := by
  induction rounds generalizing before with
  | zero =>
      rw [repeatWhile] at ended
      split at ended
      next failed =>
        cases ended
        exact ⟨_, holds, .inl ⟨failed, rfl⟩⟩
      next => cases ended
      next => cases ended
  | succ rounds ih =>
      rw [repeatWhile] at ended
      split at ended
      next failed =>
        cases ended
        exact ⟨_, holds, .inl ⟨failed, rfl⟩⟩
      next => cases ended
      next goesOn =>
        split at ended
        next => cases ended
        next failed =>
          cases ended
          exact ⟨_, holds, .inr ⟨goesOn, failed⟩⟩
        next result between ran => exact ih (round holds goesOn ran) ended

theorem repeatWhile_of_error {rounds : Nat} {context : Context} {fault : Fault}
    (failed : condition context = .error fault) :
    repeatWhile condition body rounds context = some ⟨.error fault, context⟩ := by
  cases rounds <;> rw [repeatWhile, failed]

theorem andThen_eq_some {α β : Type} {answer : Option (Step α)}
    {next : α → Context → Option (Step β)} {step : Step β} (ended : andThen answer next = some step) :
    (∃ result context, answer = some ⟨.ok result, context⟩ ∧ next result context = some step) ∨
      ∃ fault context, answer = some ⟨.error fault, context⟩ ∧ step = ⟨.error fault, context⟩ := by
  unfold andThen at ended
  split at ended
  next => cases ended
  next result context => exact .inl ⟨result, context, rfl, ended⟩
  next fault context =>
    cases ended
    exact .inr ⟨fault, context, rfl, rfl⟩

end Evaluation

theorem Stmt.run_branch (rounds : Nat) (location : Location) (condition : Expr) (yes : Stmt)
    (no : Option Stmt) (context : Context) :
    run rounds (branch location condition yes no) context =
      match Evaluation.condition context.getValue? condition with
      | .error fault => some ⟨.error fault, context⟩
      | .ok true => (run rounds yes context).map fun step => (step.leave context.mark).silent
      | .ok false =>
        match no with
        | none => some (.nothing context)
        | some no => (run rounds no context).map fun step => (step.leave context.mark).silent :=
  run.eq_def rounds (branch location condition yes no) context

end Quantities
