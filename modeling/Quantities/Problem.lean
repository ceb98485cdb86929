import Quantities.Display
import Quantities.Source.Location

/-!
What can be wrong with a program that is well formed. Checking and running find the same kinds of
problems, under codes of their own. Checking shows the types of the operands, running their values.
-/

namespace Quantities

/-- When a problem is found. -/
inductive Phase where
  | typing
  | running
deriving Repr, DecidableEq

inductive Problem (Operand : Type) where
  | nameNotDefined (name : String)
  | notBoolean (found : Operand)
  | notNumber (found : Operand)
  | notNumberOrUnit (found : Operand)
  | notScalar (found : Operand)
  | notUnit (found : Operand)
  | baseMismatch (left right : Operand)
  | typeMismatch (left right : Operand)
  | operationNotDefined (symbol : String) (left right : Operand)
  | nothingDeclared
  | operationFailed (reason : String)
  | unitNotStatic (found : Operand)
deriving Repr

/-- What is said of an operation on values that has no result. -/
def undefinedOperation : String := "operation not defined"

namespace Problem

variable {Operand : Type}

def message (shown : Operand → String) : Problem Operand → String
  | nameNotDefined name => "'" ++ name ++ "' is not defined"
  | notBoolean found => "not a boolean: '" ++ shown found ++ "'"
  | notNumber found => "not a number: '" ++ shown found ++ "'"
  | notNumberOrUnit found => "not a number or unit: '" ++ shown found ++ "'"
  | notScalar found => "not a scalar: '" ++ shown found ++ "'"
  | notUnit found => "not a unit: '" ++ shown found ++ "'"
  | baseMismatch left right =>
    "base dimensions do not match of '" ++ shown left ++ "' and '" ++ shown right ++ "'"
  | typeMismatch left right =>
    "type mismatch: '" ++ shown left ++ "' and '" ++ shown right ++ "'"
  | operationNotDefined symbol left right =>
    "'" ++ symbol ++ "' is not defined for '" ++ shown left ++ "' and '" ++ shown right ++ "'"
  | nothingDeclared =>
    "'var' bindings must either have a type annotation, or an initial value"
  | operationFailed reason => reason
  | unitNotStatic found => "unit definition must be known statically, found '" ++ shown found ++ "'"

/-- The number of the kind of problem, as two digits. -/
def number : Problem Operand → String
  | nameNotDefined .. => "01"
  | notBoolean .. => "02"
  | notNumber .. => "03"
  | notNumberOrUnit .. => "04"
  | notScalar .. => "05"
  | notUnit .. => "06"
  | baseMismatch .. => "07"
  | typeMismatch .. => "08"
  | operationNotDefined .. => "09"
  | nothingDeclared => "10"
  | operationFailed .. => "11"
  | unitNotStatic .. => "12"

/-- The phase that a code tells. A unit that is not known statically is always a matter of types. -/
def codePhase (phase : Phase) : Problem Operand → Phase
  | unitNotStatic .. => .typing
  | _ => phase

def code (phase : Phase) (problem : Problem Operand) : String :=
  match problem.codePhase phase with
  | .typing => "E20" ++ problem.number
  | .running => "E60" ++ problem.number

end Problem

/-- A message about a place in a source text. -/
structure Diagnostic where
  code : String
  location : Location
  message : String
deriving Repr, DecidableEq

namespace Diagnostic

/-- The message with its place. -/
def placed (diagnostic : Diagnostic) : String :=
  diagnostic.location.text ++ " - " ++ diagnostic.message

def text (diagnostic : Diagnostic) : String :=
  "[" ++ diagnostic.code ++ "] " ++ diagnostic.placed

end Diagnostic

/-- A problem at the node to which it is due. -/
structure Fault where
  location : Location
  problem : Problem Value
deriving Repr

namespace Fault

def shown : Phase → Value → String
  | .typing => Value.typeText
  | .running => Value.text

def diagnostic (phase : Phase) (fault : Fault) : Diagnostic where
  code := fault.problem.code phase
  location := fault.location
  message := fault.problem.message (shown phase)

end Fault

/-- Refuses a node. -/
def refuse {α : Type} (location : Location) (problem : Problem Value) : Except Fault α :=
  .error ⟨location, problem⟩

/-- The result of an operation on values, which fails at the node when there is none. -/
def defined (location : Location) : Option Value → Except Fault Value
  | some v => .ok v
  | none => refuse location (.operationFailed undefinedOperation)

end Quantities
