import Quantities.Context
import Quantities.Problem

/-!
What a statement comes to: its result or its fault, and the context in which it leaves off. A
statement that fails still leaves a context behind, with whatever it had assigned by then.
-/

namespace Quantities

structure Step (α : Type) where
  result : Except Fault α
  context : Context

namespace Step

variable {α β : Type}

/-- Goes on with the result, unless there is none. -/
def andThen (step : Step α) (next : α → Context → Step β) : Step β :=
  match step.result with
  | .ok result => next result step.context
  | .error fault => ⟨.error fault, step.context⟩

/-- Leaves a nested scope, also after a fault. -/
def leave (step : Step α) (mark : ScopeMark) : Step α :=
  { step with context := step.context.leave mark }

/-- Forgets the result of a statement in another one. -/
def silent (step : Step α) : Step (Option Value) :=
  ⟨step.result.map fun _ => none, step.context⟩

/-- A statement without a result. -/
def nothing (context : Context) : Step (Option Value) := ⟨.ok none, context⟩

/-- A statement whose result is a value that has no effect. -/
def yield (context : Context) (result : Except Fault Value) : Step (Option Value) :=
  ⟨result.map some, context⟩

/-- A statement that binds the value it results in. -/
def bind (context : Context) (result : Except Fault Value) (add : Value → Context) :
    Step (Option Value) :=
  match result with
  | .ok v => ⟨.ok (some v), add v⟩
  | .error fault => ⟨.error fault, context⟩

end Step

/-- The constructor that a declared type must be, as the type of what it builds. -/
def instanceType (location : Location) (v : Value) : Except Fault Value :=
  match v.instanceType? with
  | some type => .ok type
  | none => refuse location (.notUnit v)

/-- The unit that a definition reduces to. The magnitude of a number goes into the factor. -/
def Value.definedUnit? : Value → Option Measure
  | .quantity q => some (q.unit.withFactor (q.magnitude * q.unit.factor))
  | .unitConstructor unit => some unit
  | _ => none

/-- A new unit worth as much as another one. -/
def Measure.derived (label : String) (worth : Measure) : Measure :=
  ⟨Dimensions.single label, worth.base, worth.factor⟩

end Quantities
