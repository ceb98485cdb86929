import Quantities.Evaluation
import Quantities.Step

/-!
Running statements. A loop may go round without end, so running takes a bound on the rounds of any
one loop, and has no answer when a loop needs more. An answer does not depend on the bound.
-/

namespace Quantities

namespace Evaluation

/-- The value of an expression that may be missing. -/
def optional (values : String → Option Value) : Option Expr → Except Fault (Option Value)
  | some e => (e.eval values).map some
  | none => .ok none

def condition (values : String → Option Value) (e : Expr) : Except Fault Bool := do
  let v ← e.eval values
  truth e.location v

/-- The type in a declaration of a variable. -/
def declaredType (values : String → Option Value) : Option Expr → Except Fault (Option Value)
  | some e => do
    let constructor ← e.eval values
    return some (← instanceType e.location constructor)
  | none => .ok none

/-- The value of a variable. Until it is assigned, one that is only declared holds a hole. -/
def variableValue (values : String → Option Value) (location : Location) (name : String)
    (declared initial : Option Expr) : Except Fault Value := do
  let declared ← declaredType values declared
  let initial ← optional values initial
  match declared, initial with
  | some declared, some initial =>
    if initial.isSubtypeOf declared then return initial
    else refuse location (.typeMismatch initial declared)
  | some declared, none => return .hole name declared
  | none, some initial => return initial
  | none, none => refuse location .nothingDeclared

/-- The unit that a declaration makes. Without a definition it is a base unit. -/
def unitValue (values : String → Option Value) (name : String) :
    Option Expr → Except Fault Value
  | none => .ok (.unitConstructor (Measure.fresh name))
  | some e => do
    let v ← e.eval values
    match v.definedUnit? with
    | some worth => return .unitConstructor (Measure.derived name worth)
    | none => refuse e.location (.notNumberOrUnit v)

/-- The value to be assigned, which must be of the type of the present one. -/
def assignedValue (values : String → Option Value) (location : Location) (name : String)
    (rhs : Expr) : Except Fault Value :=
  match values name with
  | none => refuse location (.nameNotDefined name)
  | some present => do
    let v ← rhs.eval values
    if v.isSubtypeOf present.abstractType then return v
    else refuse location (.typeMismatch v present.abstractType)

/-- Assigns a value to a name in the context, if there is one. -/
def assign (location : Location) (name : String) (result : Except Fault Value)
    (context : Context) : Step (Option Value) :=
  match result with
  | .error fault => ⟨.error fault, context⟩
  | .ok v =>
    match context.setValue? name v with
    | some context => ⟨.ok (some v), context⟩
    | none => ⟨refuse location (.nameNotDefined name), context⟩

/-- Goes on with the result of an answer, unless there is none. -/
def andThen {α β : Type} (answer : Option (Step α)) (next : α → Context → Option (Step β)) :
    Option (Step β) :=
  match answer with
  | none => none
  | some ⟨.ok result, context⟩ => next result context
  | some ⟨.error fault, context⟩ => some ⟨.error fault, context⟩

/-- Runs the body as long as the condition holds, at most so many times. -/
def repeatWhile {α : Type} (condition : Context → Except Fault Bool)
    (body : Context → Option (Step α)) : Nat → Context → Option (Step (Option Value))
  | rounds, context =>
    match condition context with
    | .error fault => some ⟨.error fault, context⟩
    | .ok false => some (.nothing context)
    | .ok true =>
      match rounds with
      | 0 => none
      | rounds + 1 =>
        match body context with
        | none => none
        | some ⟨.error fault, context⟩ => some ⟨.error fault, context⟩
        | some ⟨.ok _, context⟩ => repeatWhile condition body rounds context

end Evaluation

namespace Stmt

mutual

/-- The value of a statement, and the context with what it binds and assigns. -/
def run (rounds : Nat) : Stmt → Context → Option (Step (Option Value))
  | empty _, context => some (.nothing context)
  | block _ body, context =>
    (runAll rounds body none context).map fun step => (step.leave context.mark).silent
  | branch _ condition yes no, context =>
    match Evaluation.condition context.getValue? condition with
    | .error fault => some ⟨.error fault, context⟩
    | .ok true => (run rounds yes context).map fun step => (step.leave context.mark).silent
    | .ok false =>
      match no with
      | none => some (.nothing context)
      | some no => (run rounds no context).map fun step => (step.leave context.mark).silent
  | loop _ condition body, context =>
    Evaluation.repeatWhile (fun context => Evaluation.condition context.getValue? condition)
      (fun context => (run rounds body context).map (·.leave context.mark)) rounds context
  | var location name declared initial, context =>
    some (.bind context
      (Evaluation.variableValue context.getValue? location name declared initial)
      (context.addValue name))
  | unit _ name definition, context =>
    some (.bind context (Evaluation.unitValue context.getValue? name definition)
      (context.addValue name))
  | assign location name rhs, context =>
    some (Evaluation.assign location name
      (Evaluation.assignedValue context.getValue? location name rhs) context)
  | constant _ name rhs, context =>
    some (.bind context (rhs.eval context.getValue?) (context.addValue name))
  | expr _ e, context => some (.yield context (e.eval context.getValue?))

/-- Runs statements up to the first fault. The value is that of the last one. -/
def runAll (rounds : Nat) : List Stmt → Option Value → Context → Option (Step (Option Value))
  | [], last, context => some ⟨.ok last, context⟩
  | first :: rest, _, context => Evaluation.andThen (run rounds first context) (runAll rounds rest)

end

end Stmt

end Quantities
