import Quantities.Problem
import Quantities.Proofs.Result

/-!
What holds of the fault with which a result fails. It holds of the fault of a computation if it holds
of the faults of its steps, so that each refusal is looked at where it stands.
-/

namespace Quantities

/-- The result does not fail, or it fails with one of these faults. -/
def FailsOnly {α : Type} (faults : Fault → Prop) (result : Except Fault α) : Prop :=
  ∀ fault, result = .error fault → faults fault

namespace FailsOnly

variable {α β : Type} {faults wider : Fault → Prop} {location : Location}
  {first other : Except Fault α} {next : α → Except Fault β}

theorem ok {v : α} : FailsOnly faults (.ok v) := nofun

theorem error {fault : Fault} (allowed : faults fault) :
    FailsOnly faults (.error fault : Except Fault α) := by
  intro other failed
  cases failed
  exact allowed

theorem refuse {problem : Problem Value} (allowed : faults ⟨location, problem⟩) :
    FailsOnly faults (Quantities.refuse location problem : Except Fault α) := error allowed

theorem defined {found : Option Value} (has : ∃ v, found = some v) :
    FailsOnly faults (Quantities.defined location found) := by
  obtain ⟨v, rfl⟩ := has
  exact ok

theorem ite {condition : Prop} [Decidable condition] (holds : condition → FailsOnly faults first)
    (fails : ¬ condition → FailsOnly faults other) :
    FailsOnly faults (if condition then first else other) := by
  split
  next is => exact holds is
  next isNot => exact fails isNot

theorem bind (fails : FailsOnly faults first)
    (nextFails : ∀ v, first = .ok v → FailsOnly faults (next v)) :
    FailsOnly faults (first >>= next) := by
  intro fault failed
  rcases Result.bind_eq_error.mp failed with early | ⟨v, succeeded, late⟩
  · exact fails fault early
  · exact nextFails v succeeded fault late

theorem map (fails : FailsOnly faults first) {change : α → β} :
    FailsOnly faults (first.map change) := by
  intro fault failed
  cases first with
  | error early =>
      cases failed
      exact fails _ rfl
  | ok v => cases failed

theorem imp (fails : FailsOnly faults first) (weaker : ∀ fault, faults fault → wider fault) :
    FailsOnly wider first := fun fault failed => weaker fault (fails fault failed)

end FailsOnly

end Quantities
