import Quantities.Step
import Quantities.Typing

/-!
Checking statements. Blocks, branches and the body of a loop are checked in a scope of their own,
both branches always and the body of a loop once.
-/

namespace Quantities

namespace Typing

/-- The type of an expression that may be missing. -/
def optional (types : String → Option Value) : Option Expr → Except Fault (Option Value)
  | some e => (e.infer types).map some
  | none => .ok none

def condition (types : String → Option Value) (e : Expr) : Except Fault Unit := do
  let type ← e.infer types
  if type.isBoolean then return () else refuse e.location (.notBoolean type)

/-- The type in a declaration of a variable. -/
def declaredType (types : String → Option Value) : Option Expr → Except Fault (Option Value)
  | some e => do
    let constructor ← e.infer types
    return some (← instanceType e.location constructor)
  | none => .ok none

/-- The type of a variable: what is declared, or else the initial type without the value that
later assignments may change. -/
def variableType (types : String → Option Value) (location : Location)
    (declared initial : Option Expr) : Except Fault Value := do
  let declared ← declaredType types declared
  let initial ← optional types initial
  match declared, initial with
  | some declared, some initial =>
    if initial.isSubtypeOf declared then return declared
    else refuse location (.typeMismatch initial declared)
  | some declared, none => return declared
  | none, some initial => return initial.abstractType
  | none, none => refuse location .nothingDeclared

/-- The unit that a declaration makes. Without a definition it is a base unit. -/
def unitType (types : String → Option Value) (name : String) :
    Option Expr → Except Fault Value
  | none => .ok (.unitConstructor (Measure.fresh name))
  | some e => do
    let v ← e.infer types
    match v.definedUnit? with
    | some worth => return .unitConstructor (Measure.derived name worth)
    | none =>
      match v with
      | .quantityType _ => refuse e.location (.unitNotStatic v)
      | _ => refuse e.location (.notNumberOrUnit v)

def assignmentType (types : String → Option Value) (location : Location) (name : String)
    (rhs : Expr) : Except Fault Value :=
  match types name with
  | none => refuse location (.nameNotDefined name)
  | some declared => do
    let type ← rhs.infer types
    if type.isSubtypeOf declared.unwrap then return type
    else refuse location (.typeMismatch type declared.unwrap)

end Typing

namespace Stmt

mutual

/-- The type of the value of a statement, and the context with what it binds. -/
def check : Stmt → Context → Step (Option Value)
  | empty _, context => .nothing context
  | block _ body, context => ((checkAll body none context).leave context.mark).silent
  | branch _ condition yes no, context =>
    match Typing.condition context.getType? condition with
    | .error fault => ⟨.error fault, context⟩
    | .ok () =>
      ((yes.check context).leave context.mark).andThen fun _ context =>
        match no with
        | none => .nothing context
        | some no => ((no.check context).leave context.mark).silent
  | loop _ condition body, context =>
    match Typing.condition context.getType? condition with
    | .error fault => ⟨.error fault, context⟩
    | .ok () => ((body.check context).leave context.mark).silent
  | var location name declared initial, context =>
    .bind context (Typing.variableType context.getType? location declared initial)
      (context.addType name)
  | unit _ name definition, context =>
    .bind context (Typing.unitType context.getType? name definition) (context.addType name)
  | assign location name rhs, context =>
    .yield context (Typing.assignmentType context.getType? location name rhs)
  | constant _ name rhs, context =>
    .bind context (rhs.infer context.getType?) (context.addType name)
  | expr _ e, context => .yield context (e.infer context.getType?)

/-- Checks statements up to the first fault. The type is that of the last one. -/
def checkAll : List Stmt → Option Value → Context → Step (Option Value)
  | [], last, context => ⟨.ok last, context⟩
  | first :: rest, _, context => (first.check context).andThen (checkAll rest)

end

end Stmt

end Quantities
